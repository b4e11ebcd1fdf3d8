import GroupConsumer.Proofs.Departure
import GroupConsumer.Proofs.Run.Ready
import GroupConsumer.Proofs.Session.Converses

/-!
# Slots that only their owner knows

A slot is secluded if nothing is linked to it, no collaborator has answered with it, and no leave goes on
under it. Work that does not name it leaves it so, and leaves its outcome as it was: `Confined p I q` says
this of all that leads from `p` to `q` and names the slots in `I` alone. Events, background progress and
what happens outside are confined to the slots that they name, since what a member does is confined to
its leave and to new slots (`Steady.touches`). What the collaborators do of themselves concerns their
answers alone (`Tidy.converses`).
-/

namespace GroupConsumer

/-- A leave that goes on or ends works on its own slot. -/
theorem Membership.Tends.touches {m n : Membership} (h : m.Tends n) :
    m.session.WorksOn (fun j => m.member.leaveSlot = some j) n.session := by
  obtain h | ⟨k, r, hk, hn⟩ := h
  · exact h.slots.mono fun _ => False.elim
  · have hend : k.session.WorksOn (fun j => m.member.leaveSlot = some j)
        (k.completeLeave r).session := by
      unfold completeLeave
      split
      · rename_i l hl
        refine (Session.worksOn_completeUnit k.session l r).mono fun j hj => ?_
        rw [hj, ← hl]
        exact hk.leaveSlot.symm
      · exact .refl _ _
    have hmono {a b : Membership} (h : a.KeepsLeave b) :
        a.session.WorksOn (fun j => m.member.leaveSlot = some j) b.session :=
      h.slots.mono fun _ => False.elim
    exact ((hmono hk).trans hend).trans (hmono hn)

namespace Processor

variable {p q r : Processor} {c : Cause} {i : SlotId} {I : List SlotId}

/-! ### Causes -/

/-- A member in motion works on the slot that the cause names and on that of its leave. -/
theorem Motion.touches (h : Motion p c q) :
    p.session.WorksOn (fun j => j ∈ c.names ∨ p.leaveSlot? = some j) q.session := by
  have hnone {s t : Session} {J : SlotId → Prop}
      (h : s.Proceeds (fun _ => False) (fun _ => False) t) : s.WorksOn J t :=
    h.worksOn.mono fun _ => False.elim
  cases h with
  | absent _ _ hq =>
    rw [hq]
    exact .refl _ _
  | @answered e t s hc ht _ _ hs hq =>
    subst hc
    rw [hq]
    refine (hnone hs).trans ((Session.worksOn_complete s t.slot _).mono fun j hj => ?_)
    exact Or.inl (hj ▸ AppEvent.slot_mem_names ht)
  | @tended x m _ hm ht hq =>
    rw [hq]
    exact ht.touches.mono fun j hj => Or.inr ((leaveSlot?_eq hm).trans hj)
  | @left e t m n l hc ht hs _ h hq =>
    subst hc
    rw [hq, ← hs]
    refine (hnone h.proceeds).trans ((Session.worksOn_chain n.session l t.slot).mono fun j hj => ?_)
    exact Or.inl (hj ▸ AppEvent.slot_mem_names ht)

/-- A leave goes on under the slot that it had, or under a new one. -/
theorem Motion.leaveSlot?_cases (h : Motion p c q) {l : SlotId} (hl : q.leaveSlot? = some l) :
    p.leaveSlot? = some l ∨ p.session.slots.cells.size ≤ l := by
  cases h with
  | absent _ _ hq =>
    rw [hq] at hl
    exact Or.inl hl
  | answered _ _ _ hqm =>
    rw [leaveSlot?_of_none hqm] at hl
    cases hl
  | @tended x m _ hm ht hq =>
    subst hq
    have hml : m.member.leaveSlot = some l := hl
    obtain he | he := ht.leaveSlot
    · exact Or.inl ((leaveSlot?_eq hm).trans (he.symm.trans hml))
    · cases he.symm.trans hml
  | left _ _ hs hml hd _ hqm =>
    have hnl := (leaveSlot?_eq hqm).symm.trans hl
    cases hd with
    | atOnce _ after => cases after.symm.trans hnl
    | joined _ same =>
      subst same
      exact Or.inl (hml.symm.trans hnl)
    | begun _ after _ new =>
      obtain rfl := Option.some.inj (after.symm.trans hnl)
      exact Or.inr (Nat.le_of_eq (by rw [new, hs]))

/-- Every cause works on the slots that it names, and on that of the leave. -/
theorem Steady.touches (hp : p.Steady) (c : Cause) :
    p.session.WorksOn (fun j => j ∈ c.names ∨ p.leaveSlot? = some j) (p.undergo c).session := by
  cases hc : c.trigger? p with
  | none => exact Session.WorksOn.mono (Processor.worksOn_undergo hc) fun j hj => Or.inl hj
  | some t => exact (hp.motion hc).touches

theorem Steady.leaveSlot?_cases (hp : p.Steady) (c : Cause) {l : SlotId}
    (hl : (p.undergo c).leaveSlot? = some l) :
    p.leaveSlot? = some l ∨ p.session.slots.cells.size ≤ l := by
  cases hc : c.trigger? p with
  | none => exact Or.inl ((hp.leaveSlot?_undergo hc).symm.trans hl)
  | some t => exact (hp.motion hc).leaveSlot?_cases hl

/-- An answer comes in the slot of an earlier one, or in a new slot. -/
theorem Steady.hasAnswer_cases (hp : p.Steady) (c : Cause) :
    ∀ f ∈ (p.undergo c).session.futures.toList,
      p.session.HasAnswer f.2 ∨ p.session.slots.cells.size ≤ f.2 := by
  by_cases hl : c = .lookups
  · subst hl
    exact fun f hf => Or.inl ⟨f, hf, rfl⟩
  · exact fun f hf => ((hp.proceeds hl).answers f hf).imp_right And.left

/-! ### Confined work -/

/-- The slot exists, nothing is linked to it, no collaborator has answered with it, and no leave goes on
under it. -/
structure Secludes (p : Processor) (i : SlotId) : Prop where
  slot : i < p.session.slots.cells.size
  unlinked : p.session.slots.LedBy (fun _ => False) i
  unanswered : ¬ p.session.HasAnswer i
  leave : p.leaveSlot? ≠ some i

/-- The processor is fit, and nothing is linked to slots that do not exist yet. -/
structure Tidy (p : Processor) : Prop extends Fit p where
  unborn : ∀ j, p.session.slots.cells.size ≤ j → p.session.slots.LedBy (fun _ => False) j

/-- From `p` to `q`, secluded slots stay secluded and have the outcomes they had, apart from those
in `I`. -/
structure Confined (p : Processor) (I : List SlotId) (q : Processor) : Prop where
  tidy : q.Tidy
  size : p.session.slots.cells.size ≤ q.session.slots.cells.size
  keeps : p.session.slots.Keeps q.session.slots
  secludes : ∀ i, i ∉ I → p.Secludes i →
    q.Secludes i ∧ q.session.slots.outcome? i = p.session.slots.outcome? i

theorem Confined.refl (hp : p.Tidy) (I : List SlotId) : p.Confined I p :=
  ⟨hp, Nat.le_refl _, .refl _, fun _ _ hi => ⟨hi, rfl⟩⟩

theorem Confined.trans (h : p.Confined I q) (h' : q.Confined I r) : p.Confined I r where
  tidy := h'.tidy
  size := Nat.le_trans h.size h'.size
  keeps := h.keeps.trans h'.keeps
  secludes i hi hp := by
    obtain ⟨hq, ho⟩ := h.secludes i hi hp
    obtain ⟨hr, ho'⟩ := h'.secludes i hi hq
    exact ⟨hr, ho'.trans ho⟩

theorem Confined.mono {J : List SlotId} (h : p.Confined I q)
    (hJ : ∀ i, p.Secludes i → i ∈ I → i ∈ J) : p.Confined J q where
  tidy := h.tidy
  size := h.size
  keeps := h.keeps
  secludes i hi hp := h.secludes i (fun hmem => hi (hJ i hp hmem)) hp

/-- Work that names no slot is confined to whatever slots. -/
theorem Confined.of_nil (h : p.Confined [] q) (I : List SlotId) : p.Confined I q :=
  h.mono fun _ _ hi => absurd hi List.not_mem_nil

/-- Answers are slots that exist. -/
theorem Fit.lt_of_hasAnswer (hp : p.Fit) (hi : p.session.HasAnswer i) :
    i < p.session.slots.cells.size := by
  obtain ⟨f, hf, rfl⟩ := hi
  exact hp.filed f hf

/-- Work on slots in `I`, on answers and on the slot of the leave is confined to `I`. -/
theorem Tidy.confined (hp : p.Tidy) (hq : q.Fit) (hI : ∀ j ∈ I, j < p.session.slots.cells.size)
    (hw : p.session.WorksOn (fun j => j ∈ I ∨ p.leaveSlot? = some j ∨ p.session.HasAnswer j) q.session)
    (hf : ∀ f ∈ q.session.futures.toList,
      p.session.HasAnswer f.2 ∨ p.session.slots.cells.size ≤ f.2)
    (hl : ∀ l, q.leaveSlot? = some l →
      p.leaveSlot? = some l ∨ p.session.slots.cells.size ≤ l) : p.Confined I q where
  tidy :=
    { toFit := hq
      unborn := by
        intro j hj
        have hpj := Nat.le_trans hw.size hj
        refine hw.links _ j (fun hmem => ?_) (hp.unborn j hpj)
        obtain hmem | hleave | hanswer := hmem
        · exact Nat.not_lt_of_le hpj (hI j hmem)
        · exact Nat.not_lt_of_le hpj (hp.leave j hleave)
        · exact Nat.not_lt_of_le hpj (hp.lt_of_hasAnswer hanswer) }
  size := hw.size
  keeps := hw.keeps
  secludes i hi h := by
    have hn : ¬ (i ∈ I ∨ p.leaveSlot? = some i ∨ p.session.HasAnswer i) := by
      rintro (hmem | hleave | hanswer)
      · exact hi hmem
      · exact h.leave hleave
      · exact h.unanswered hanswer
    refine ⟨⟨Nat.lt_of_lt_of_le h.slot hw.size, hw.links _ i hn h.unlinked, ?_, fun hleave => ?_⟩,
      hw.outcome _ i h.slot hn h.unlinked fun _ => False.elim⟩
    · rintro ⟨f, hmem, rfl⟩
      obtain hanswer | hle := hf f hmem
      · exact h.unanswered hanswer
      · exact Nat.not_lt_of_le hle h.slot
    · obtain hleave | hle := hl i hleave
      · exact h.leave hleave
      · exact Nat.not_lt_of_le hle h.slot

/-- A change of the slots in `I` and of answers alone. -/
theorem Tidy.confined_of_session (hp : p.Tidy) (hI : ∀ j ∈ I, j < p.session.slots.cells.size)
    (hw : p.session.WorksOn (fun j => j ∈ I ∨ p.session.HasAnswer j) q.session)
    (hm : q.member = p.member) (hs : q.session.subscription = p.session.subscription)
    (hf : q.session.futures = p.session.futures) : p.Confined I q := by
  have hleave : q.leaveSlot? = p.leaveSlot? := by rw [leaveSlot?, leaveSlot?, hm]
  have hfit : q.Fit :=
    { steady := fun x hx => by
        have hpx := hp.steady x (hm.symm.trans hx)
        exact ⟨hx, hpx.coherent, hpx.agrees.congr hs rfl⟩
      filed := fun f hfile => by
        rw [hf] at hfile
        exact Nat.lt_of_lt_of_le (hp.filed f hfile) hw.size
      leave := fun l hl => Nat.lt_of_lt_of_le (hp.leave l (hleave.symm.trans hl)) hw.size }
  refine hp.confined hfit hI (hw.mono fun j hj => hj.imp_right Or.inr) (fun f hfile => Or.inl ?_)
    fun l hl => Or.inl (hleave.symm.trans hl)
  rw [hf] at hfile
  exact ⟨f, hfile, rfl⟩

/-- A change of the slots in `I` alone. -/
theorem Tidy.confined_of_worksOn (hp : p.Tidy) (hI : ∀ j ∈ I, j < p.session.slots.cells.size)
    (hw : p.session.WorksOn (· ∈ I) q.session) (hm : q.member = p.member)
    (hs : q.session.subscription = p.session.subscription)
    (hf : q.session.futures = p.session.futures) : p.Confined I q :=
  hp.confined_of_session hI (hw.mono fun _ => Or.inl) hm hs hf

/-- A change of no slot. -/
theorem Tidy.confined_of_slots (hp : p.Tidy) (hm : q.member = p.member)
    (hs : q.session.subscription = p.session.subscription)
    (hslots : q.session.slots = p.session.slots) (hf : q.session.futures = p.session.futures) :
    p.Confined [] q :=
  hp.confined_of_worksOn (fun _ hj => absurd hj List.not_mem_nil) (Session.worksOn_of_slots _ hslots)
    hm hs hf

/-- What the collaborators do of themselves leaves secluded slots alone. -/
theorem Tidy.converses (hp : p.Tidy) (hm : q.member = p.member)
    (h : p.session.Converses q.session) : p.Confined [] q :=
  hp.confined_of_session (fun _ hj => absurd hj List.not_mem_nil)
    (h.worksOn.mono fun _ => Or.inr) hm h.subscription h.futures

theorem Tidy.undergo (hp : p.Tidy) (hc : ∀ j ∈ c.names, j < p.session.slots.cells.size) :
    p.Confined c.names (p.undergo c) :=
  hp.confined (hp.toFit.undergo c) hc
    ((hp.steady.touches c).mono fun _ hj => hj.imp_right Or.inl) (hp.steady.hasAnswer_cases c)
    fun _ => hp.steady.leaveSlot?_cases c

theorem Tidy.follow (hp : p.Tidy) {cs : List Cause} (hcs : ∀ c ∈ cs, ∀ j ∈ c.names, j ∈ I)
    (hI : ∀ j ∈ I, j < p.session.slots.cells.size) : p.Confined I (p.follow cs) := by
  induction cs generalizing p with
  | nil => exact .refl hp I
  | cons c cs ih =>
    have hc := hcs c List.mem_cons_self
    have hfirst := hp.undergo fun j hj => hI j (hc j hj)
    have hrest := ih hfirst.tidy (fun d hd => hcs d (List.mem_cons_of_mem _ hd))
      fun j hj => Nat.lt_of_lt_of_le (hI j hj) hfirst.size
    exact (hfirst.mono fun j _ => hc j).trans hrest

/-! ### Actions -/

/-- The causes of an event name what the event names. -/
theorem names_subset_of_mem_process {e : AppEvent} (hc : c ∈ p.causes (.process e)) :
    ∀ j ∈ c.names, j ∈ e.names := by
  cases e with
  | poll time gate =>
    obtain rfl | rfl | rfl | rfl | ⟨fs, rfl⟩ := mem_pollCauses hc <;>
      simp [Cause.names, AppEvent.names]
  | callbackDone method slot fault =>
    obtain rfl | ⟨now, rfl⟩ | ⟨fs, rfl⟩ := mem_callbackCauses hc <;>
      simp [Cause.names, AppEvent.names]
  | _ =>
    obtain rfl := List.mem_singleton.1 hc
    exact fun j => id

/-- An event is confined to the slots that it names. -/
theorem Tidy.process (hp : p.Tidy) {e : AppEvent}
    (he : ∀ j ∈ e.names, j < p.session.slots.cells.size) : p.Confined e.names (p.process e) := by
  have hnames : ∀ c ∈ p.causes (.process e), ∀ j ∈ c.names, j ∈ e.names := fun _ =>
    names_subset_of_mem_process
  have h := hp.follow hnames he
  rwa [hp.steady.follow_causes] at h

/-- What happens outside is confined to the slots that it names. -/
theorem Tidy.outside (hp : p.Tidy) {o : Outside}
    (ho : ∀ j ∈ o.names, j < p.session.slots.cells.size) :
    p.Confined o.names (p.withSession (·.undergo o)) := hp.undergo (c := .outside o) ho

/-- A slot whose number somebody else keeps for a lookup is not secluded, and exists. -/
theorem Tidy.deferred (hp : p.Tidy) {u : Deferral × Value} (hu : u ∈ p.session.deferred)
    (hi : i ∈ u.1.slot?.toList) : i < p.session.slots.cells.size ∧ ¬ p.Secludes i := by
  have hlinked : ¬ p.session.slots.LedBy (fun _ => False) i := fun hled =>
    hled.journal _ (Session.mem_deferred.1 hu) hi
  refine ⟨Nat.lt_of_not_le fun hle => hlinked (hp.unborn i hle), fun h => hlinked h.unlinked⟩

/-- Background progress leaves secluded slots alone. -/
theorem Tidy.progress (hp : p.Tidy) (now : Int64) : p.Confined [] (p.progress now) := by
  let I := p.session.deferred.flatMap fun u => u.1.slot?.toList
  have hI : ∀ j ∈ I, j < p.session.slots.cells.size ∧ ¬ p.Secludes j := by
    intro j hj
    obtain ⟨u, hu, hj⟩ := List.mem_flatMap.1 hj
    exact hp.deferred hu hj
  have hnames : ∀ c ∈ p.causes (.progress now), ∀ j ∈ c.names, j ∈ I := by
    intro c hc
    obtain rfl | ⟨u, rfl⟩ | rfl | ⟨o, rfl⟩ | rfl | rfl | ⟨fs, rfl⟩ := mem_progressCauses hc
    case inr.inl =>
      exact fun j hj => List.mem_flatMap.2 ⟨u, mem_deferred_of_mem_progressCauses hc, hj⟩
    all_goals exact fun j hj => absurd hj List.not_mem_nil
  have h := hp.follow hnames fun j hj => (hI j hj).1
  rw [hp.steady.follow_causes] at h
  exact h.mono fun j hj hmem => absurd hj (hI j hmem).2

end Processor

theorem Setup.tidy_begin (u : Setup) (inGroup : Bool) : (u.begin inGroup).Tidy :=
  ⟨u.fit_begin inGroup, (u.guarded_begin inGroup 0).unborn⟩

end GroupConsumer
