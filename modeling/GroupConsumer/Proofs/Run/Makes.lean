import GroupConsumer.Proofs.Member.Hails
import GroupConsumer.Proofs.Run.Secluded

/-!
# What the slots are for that a moment makes

A moment may make slots, and what it makes them for is one thing only: the answer of a collaborator, the
end of a leave, or the answer of the caller. `Fit.answers`, `Sound.leaveSlot?_cases` and
`Fit.hailed` say so of each; `Sound.stage_cases` says which slots a stage waits for. Every slot is made
in one moment (`Lived.eq_of_makes`).
-/

namespace GroupConsumer

namespace Moment

/-- The slot is made in this moment. -/
def Makes (y : Moment) (i : SlotId) : Prop :=
  y.before.session.slots.cells.size ≤ i ∧ i < y.after.session.slots.cells.size

/-- A request to leave is linked to the slot in this moment. -/
def Links (y : Moment) (l : SlotId) : Prop :=
  ∃ e x z, y.cause = .received e ∧ e.isLeave = true ∧ y.before.member = some x ∧
    (z = x ∨ z = { x with closing := true }) ∧ (Membership.leave ⟨z, y.before.session⟩).2 = l

/-- The caller is asked to run its listener, and to answer in the slot. -/
def Hails (y : Moment) (i : SlotId) : Prop :=
  ∃ r, .callbackNeeded r ∈ y.published ∧ r.ticket.slot = i

theorem hails_iff {y : Moment} {i : SlotId} :
    y.Hails i ↔ some i ∈ y.published.map fun e => e.request?.map (·.ticket.slot) := by
  rw [List.mem_map]
  constructor
  · rintro ⟨r, hr, rfl⟩
    exact ⟨_, hr, rfl⟩
  · rintro ⟨e, he, hr⟩
    cases e with
    | callbackNeeded r => exact ⟨r, he, Option.some.inj hr⟩
    | _ => cases hr

instance (y : Moment) (i : SlotId) : Decidable (y.Hails i) := decidable_of_iff _ hails_iff.symm

end Moment

namespace Processor

variable {p : Processor} {x : Member} {c : Cause}

theorem trigger?_received {e : AppEvent} {t : Trigger} (h : Cause.trigger? p (.received e) = some t) :
    e.isLeave = true := by
  cases e with
  | unsubscribe | leaveOnClose => rfl
  | _ => cases h

/-! ### What happens outside -/

/-- What happens outside is neither a request nor an answer. -/
theorem undergo_outside (p : Processor) (o : Outside) :
    (p.undergo (.outside o)).session.futures = p.session.futures ∧
      (p.undergo (.outside o)).leaveSlot? = p.leaveSlot? ∧
      ∀ i, ¬ Moment.Hails ⟨p, .outside o⟩ i := by
  refine ⟨by cases o <;> rfl, rfl, ?_⟩
  rintro i ⟨r, hr, -⟩
  obtain he | ⟨fs, hc, -⟩ := Moment.published_of_unmoved (y := ⟨p, .outside o⟩) rfl
  · rw [he] at hr
    cases hr
  · cases hc

/-! ### Answers of collaborators -/

/-- An answer is an earlier one, or it comes in the slot of an earlier one or in a new slot. -/
theorem Fit.answers (hp : p.Fit) (hx : p.Sound x) (c : Cause) {n : Nat} {f : Method × SlotId}
    (h : (p.undergo c).session.futures[n]? = some f) :
    p.session.futures[n]? = some f ∨
      (p.session.futures.size ≤ n ∧
        ((∃ g ∈ p.session.futures.toList, g.2 = f.2) ∨ Moment.Makes ⟨p, c⟩ f.2)) := by
  by_cases hn : n < p.session.futures.size
  · have hold := Array.getElem?_eq_getElem hn
    have hnew := (hx.turn c).follows.1.futures n _ hold
    exact Or.inl (hold.trans (hnew.symm.trans h))
  · refine Or.inr ⟨Nat.le_of_not_lt hn, ?_⟩
    by_cases hl : c = .lookups
    · subst hl
      have hsame : p.session.futures[n]? = some f := h
      exact absurd (Array.getElem?_eq_some_iff.1 hsame).1 hn
    · exact (hp.steady.proceeds hl).answers f (Session.mem_futures.2 ⟨n, h⟩)

/-! ### Leaves -/

/-- No collaborator is asked for a leave. -/
theorem Sound.futures_of_leave (hx : p.Sound x) {e : AppEvent} (he : e.isLeave = true) :
    (p.receive e).session.futures = p.session.futures := by
  obtain ⟨t, z, q, -, hz, hqs, -, hq⟩ := receive_leave hx.member he
  rw [hq]
  show q.session.futures = _
  rw [hqs]
  exact Membership.futures_leave (m := ⟨z, p.session⟩) (hx.coherent.of_closing hz)

/-- A leave goes on under the slot that it had, or under a new one, and then no collaborator is asked
for anything. -/
theorem Sound.leaveSlot?_cases (hx : p.Sound x) (c : Cause) {l : SlotId}
    (hl : (p.undergo c).leaveSlot? = some l) :
    p.leaveSlot? = some l ∨ (p.session.slots.cells.size ≤ l ∧
      (p.undergo c).session.futures = p.session.futures) := by
  cases hc : c.trigger? p with
  | none => exact Or.inl ((hx.steady.leaveSlot?_undergo hc).symm.trans hl)
  | some t =>
    by_cases he : ∃ e, c = .received e
    · obtain ⟨e, rfl⟩ := he
      exact (hx.steady.leaveSlot?_cases _ hl).imp_right fun h =>
        ⟨h, hx.futures_of_leave (trigger?_received hc)⟩
    · have hmotion := hx.steady.motion hc
      generalize p.undergo c = q at hmotion hl
      cases hmotion with
      | absent _ hm => cases hm.symm.trans hx.member
      | answered hr | left hr => exact absurd ⟨_, hr⟩ he
      | tended _ hm ht hq =>
        subst hq
        obtain hs | hs := ht.leaveSlot
        · exact Or.inl ((leaveSlot?_eq hm).trans (hs.symm.trans hl))
        · cases hs.symm.trans hl

/-- What becomes of the processor with a member that is asked to leave. -/
theorem Sound.left (hx : p.Sound x) {e : AppEvent} (he : e.isLeave = true) :
    ∃ (t : Ticket) (z : Member), (z = x ∨ z = { x with closing := true }) ∧ z.Coherent ∧
      z.leaveSlot = p.leaveSlot? ∧
      (p.receive e).member = some (Membership.leave ⟨z, p.session⟩).1.member ∧
      (p.receive e).session = (Membership.leave ⟨z, p.session⟩).1.session.chain
        (Membership.leave ⟨z, p.session⟩).2 t.slot := by
  obtain ⟨t, z, q, -, hz, hqs, hqm, hq⟩ := receive_leave hx.member he
  refine ⟨t, z, hz, hx.coherent.of_closing hz,
    (Member.leaveSlot_of_closing hz).trans (leaveSlot?_eq hx.member).symm, ?_, ?_⟩
  · rw [hq]
    exact hqm
  · rw [hq, ← hqs]
    rfl

theorem Sound.slot_leave (hx : p.Sound x) {z : Member} (hz : z = x ∨ z = { x with closing := true }) :
    (Membership.leave ⟨z, p.session⟩).2 = p.leaveSlot?.getD p.session.slots.cells.size := by
  rw [Membership.slot_leave (m := ⟨z, p.session⟩) (hx.coherent.of_closing hz),
    Member.leaveSlot_of_closing hz, leaveSlot?_eq hx.member]

/-- A request to leave is linked to the leave that goes on, or to a new slot. -/
theorem Sound.links_cases (hx : p.Sound x) {l : SlotId} (hl : Moment.Links ⟨p, c⟩ l) :
    p.leaveSlot? = some l ∨ Moment.Makes ⟨p, c⟩ l := by
  obtain ⟨e, x', z, rfl, he, hm, hz, hl⟩ := hl
  obtain rfl : x = x' := Option.some.inj (hx.member.symm.trans hm)
  rw [hx.slot_leave hz] at hl
  cases hleave : p.leaveSlot? with
  | some k =>
    rw [hleave] at hl
    exact Or.inl (congrArg some hl)
  | none =>
    rw [hleave] at hl
    refine Or.inr ⟨Nat.le_of_eq hl, ?_⟩
    obtain ⟨t, y, hy, hcoh, hyl, -, hqs⟩ := hx.left he
    have hlt := (Membership.departs_leave (m := ⟨y, p.session⟩) hcoh).slot_lt fun k hk => by
      cases (hleave.symm.trans (hyl.symm.trans hk) : none = some k)
    rw [hx.slot_leave hy, hleave, hl] at hlt
    show l < (p.receive e).session.slots.cells.size
    rw [hqs]
    exact Nat.lt_of_lt_of_le hlt.1 (Session.worksOn_chain _ _ _).size

/-! ### Answers of the caller -/

/-- The slot is made for the answer of the caller, and for nothing else. -/
structure Hailed (p : Processor) (c : Cause) (i : SlotId) : Prop where
  made : Moment.Makes ⟨p, c⟩ i
  futures : (p.undergo c).session.futures = p.session.futures
  leave : (p.undergo c).leaveSlot? ≠ some i
  links : ∀ l, Moment.Links ⟨p, c⟩ l → l ≠ i

/-- The caller is asked in an operation of the member that is no leave. -/
theorem hailed_onMember (hm : p.member = some x) {f : Membership → Step} {t : Trigger}
    {r : CallbackRequest} (hc : ∀ e, c ≠ .received e) (hq : p.undergo c = (p.onMember f).1)
    (hmove : Move ⟨x, p.session⟩ t (f ⟨x, p.session⟩).membership (f ⟨x, p.session⟩).fault?)
    (hhails : Membership.Hailing ⟨x, p.session⟩ t →
      ∃ i, Membership.Hails ⟨x, p.session⟩ (f ⟨x, p.session⟩).membership i)
    (hr : .callbackNeeded r ∈ Moment.published ⟨p, c⟩) : p.Hailed c r.ticket.slot := by
  rw [onMember_eq hm] at hq
  have hqs : (p.undergo c).session = (f ⟨x, p.session⟩).membership.session := by
    rw [hq]
    rfl
  obtain ⟨es, cs, hg⟩ := hmove.grows
  have hg' : p.session.Grows (Moment.after ⟨p, c⟩).session es cs := by
    show p.session.Grows (p.undergo c).session es cs
    rw [hqs]
    exact hg
  rw [Moment.published_eq hg'] at hr
  obtain ⟨hhail, hstage⟩ := hmove.hailing hg hr
  obtain ⟨i, hi⟩ := hhails hhail
  obtain rfl : i = r.ticket.slot := Option.some.inj (hi.stage.symm.trans hstage)
  refine ⟨⟨hi.new.1, ?_⟩, ?_, ?_, ?_⟩
  · show _ < (p.undergo c).session.slots.cells.size
    rw [hqs]
    exact hi.new.2
  · rw [hqs]
    exact hi.futures
  · rw [hq]
    exact hi.leave
  · rintro l ⟨e, -, -, he, -⟩
    exact absurd he (hc e)

/-- The caller is asked because the member is asked to leave. -/
theorem Sound.hailed_of_leave (hx : p.Sound x) {e : AppEvent} {r : CallbackRequest}
    (he : e.isLeave = true) (hr : .callbackNeeded r ∈ Moment.published ⟨p, .received e⟩) :
    p.Hailed (.received e) r.ticket.slot := by
  obtain ⟨t, z, hz, hcoh, -, hqm, hqs⟩ := hx.left he
  have hmove := Membership.move_leave (m := ⟨z, p.session⟩) hcoh
  obtain ⟨es, cs, hg⟩ := hmove.grows
  have hg' : p.session.Grows (Moment.after ⟨p, .received e⟩).session (es ++ []) (cs ++ []) := by
    show p.session.Grows (p.receive e).session _ _
    rw [hqs]
    exact hg.trans (Session.grows_chain _ _ _)
  rw [Moment.published_eq hg', List.append_nil] at hr
  obtain ⟨hhail, hstage⟩ := hmove.hailing hg hr
  obtain ⟨i, hi, hne⟩ := Membership.hails_leave hhail
  obtain rfl : i = r.ticket.slot := Option.some.inj (hi.stage.symm.trans hstage)
  refine ⟨⟨hi.new.1, ?_⟩, hx.futures_of_leave he, ?_, ?_⟩
  · show _ < (p.receive e).session.slots.cells.size
    rw [hqs]
    exact Nat.lt_of_lt_of_le hi.new.2 (Session.worksOn_chain _ _ _).size
  · show (p.receive e).leaveSlot? ≠ _
    rw [leaveSlot?_eq hqm]
    exact hi.leave
  · rintro l ⟨e', x', y, -, -, hm, hy, rfl⟩
    obtain rfl : x = x' := Option.some.inj (hx.member.symm.trans hm)
    rw [hx.slot_leave hy, ← hx.slot_leave hz]
    exact hne

/-- The slot in which the caller is to answer is made for that, whatever it is asked for. -/
theorem Fit.hailed (hp : p.Fit) (hx : p.Sound x) {i : SlotId} (h : Moment.Hails ⟨p, c⟩ i) :
    p.Hailed c i := by
  obtain ⟨r, hr, rfl⟩ := h
  have hleave : Membership.LeaveFits ⟨x, p.session⟩ := fun l hl =>
    hp.leave l ((leaveSlot?_eq hx.member).trans hl)
  cases hc : c.trigger? p with
  | none =>
    have hunmoved : p.session.Unmoved c (p.undergo c).session := by
      have hturn := hx.turn c
      cases hturn with
      | still _ _ _ hg | noticed _ _ _ hg | picked _ _ _ _ hg => exact hg
      | moved hn => cases hn.symm.trans hc
    obtain he | ⟨fs, -, he⟩ := Moment.published_of_unmoved (y := ⟨p, c⟩) hunmoved
    · rw [he] at hr
      cases hr
    · rw [he] at hr
      obtain ⟨f, -, hf⟩ := List.mem_map.1 hr
      cases hf
  | some t =>
    have ht := Cause.eq_of_trigger? hc
    cases t with
    | polled =>
      obtain rfl : c = .polled := ht
      exact hailed_onMember hx.member (by simp) rfl (Membership.move_onPoll _) False.elim hr
    | heard o =>
      obtain rfl : c = .heard o := ht
      refine hailed_onMember hx.member (by simp) rfl (Membership.move_onHeartbeat _ o) ?_ hr
      cases o with
      | fenced => exact Membership.hails_onFenced hleave
      | success | fatal | requestSent => exact False.elim
    | advanced commits now =>
      obtain ⟨rfl, -⟩ := ht
      exact hailed_onMember hx.member (by simp) rfl
        (Membership.move_advanceOnce (p.has .commit) now hx.coherent)
        (Membership.hails_advanceOnce hleave) hr
    | left =>
      obtain ⟨e, rfl⟩ := ht
      exact hx.hailed_of_leave (trigger?_received hc) hr

/-! ### Stages -/

/-- A stage waits for what it waited for before, for an answer of the caller, or for the commit that
was asked for. -/
theorem Sound.stage_cases (hx : p.Sound x) (c : Cause) {z : Member} {j : SlotId}
    (hz : (p.undergo c).member = some z) (hj : z.stage.slot? = some j) :
    x.stage.slot? = some j ∨ Moment.Hails ⟨p, c⟩ j ∨
      (p.undergo c).session.futures[p.session.futures.size]? =
        some (.commitBeforeRevocation, j) := by
  have hturn := hx.turn c
  cases hturn with
  | still _ hm | noticed _ hm | picked _ hm =>
    obtain rfl := Option.some.inj (hm.symm.trans hz)
    exact Or.inl hj
  | @moved t y m f _ hy hmove hm hs =>
    obtain rfl := Option.some.inj (hm.symm.trans hz)
    have hstage : y.stage = x.stage := (Member.like_of_closing hy).stage
    obtain ⟨es, cs, hg⟩ := hmove.grows
    have hes : Moment.published ⟨p, c⟩ = es ++ [] := Moment.published_eq (hg.trans hs.grows)
    obtain h | ⟨r, hr, hrj⟩ | h := hmove.stage_cases hg hj
    · exact Or.inl (hstage ▸ h)
    · exact Or.inr (Or.inl ⟨r, by rwa [hes, List.append_nil], hrj⟩)
    · exact Or.inr (Or.inr (hs.grows.follows.futures _ _ h))

end Processor

/-! ### Chronicles -/

namespace Chronicle

variable {p : Processor} {k : Chronicle} {x : Member} {y y' : Moment} {i : SlotId}

/-- Slots are never lost. -/
theorem Lived.size_le (h : Lived p k) (hp : p.Fit) (hy : y ∈ k.past) :
    y.after.session.slots.cells.size ≤ k.present.session.slots.cells.size := by
  induction h with
  | start => cases hy
  | @undergo k h c ih =>
    obtain rfl | hy := List.mem_cons.1 hy
    · exact Nat.le_refl _
    · exact Nat.le_trans (ih hy) ((h.fit hp).steady.worksOn_undergo c).size

/-- A slot is made once. -/
theorem Lived.eq_of_makes (h : Lived p k) (hp : p.Fit) (hy : y ∈ k.past) (hy' : y' ∈ k.past)
    (hi : y.Makes i) (hi' : y'.Makes i) : y = y' := by
  have hlater {k : Chronicle} {c : Cause} (h : Lived p k) {z : Moment} (hz : z ∈ k.past)
      (hi : Moment.Makes ⟨k.present, c⟩ i) (hi' : z.Makes i) : False :=
    Nat.not_lt_of_le (Nat.le_trans (h.size_le hp hz) hi.1) hi'.2
  induction h with
  | start => cases hy
  | @undergo k h c ih =>
    obtain rfl | hy := List.mem_cons.1 hy
    · obtain rfl | hy' := List.mem_cons.1 hy'
      · rfl
      · exact (hlater h hy' hi hi').elim
    · obtain rfl | hy' := List.mem_cons.1 hy'
      · exact (hlater h hy hi' hi).elim
      · exact ih hy hy'

end Chronicle

end GroupConsumer
