import GroupConsumer.Proofs.Member.Ending
import GroupConsumer.Proofs.Run.Requests

/-!
# Requests to leave share one slot

While a member is on its way out there is one slot for all requests to leave. It was made when the
leave began, it is pending as long as the leave goes on, and it is completed with success in the very
step in which the member is no longer on its way out, whatever ends the leave (`leave_shared`). So the
tickets of all requests that were processed during a leave are complete as soon as it is over, and the
processor completes none of them earlier.

`LeaveStep` says what a moment can do to the leave and to the ticket of a request.
-/

namespace GroupConsumer

/-- The slot of the ticket of a request to leave. -/
def Cause.request? : Cause → Option SlotId
  | .received (.unsubscribe t) | .received (.leaveOnClose t) => some t.slot
  | _ => none

theorem Cause.request?_eq_some {c : Cause} {i : SlotId} :
    c.request? = some i ↔
      ∃ e t, c = .received e ∧ e.isLeave = true ∧ e.ticket? = some t ∧ t.slot = i := by
  constructor
  · intro h
    unfold request? at h
    split at h
    · exact ⟨_, _, rfl, rfl, rfl, Option.some.inj h⟩
    · exact ⟨_, _, rfl, rfl, rfl, Option.some.inj h⟩
    · cases h
  · rintro ⟨e, t, rfl, he, ht, rfl⟩
    cases e with
    | unsubscribe | leaveOnClose =>
      obtain rfl := Option.some.inj ht
      rfl
    | _ => cases he

namespace Moment

/-- A request to leave is processed whose ticket has the slot `i`. -/
def asks (y : Moment) (i : SlotId) : Prop := y.cause.request? = some i

/-- A member that takes part in its group is asked to leave, and the leave begins under a new slot. -/
structure Begins (y : Moment) (l : SlotId) : Prop where
  asked : ∃ i, y.asks i
  active : ∃ x, y.before.member = some x ∧ x.state.isActive = true
  new : l = y.before.session.slots.cells.size
  slot : y.after.leaveSlot? = some l

/-- A leave ends, and its slot is completed with success. -/
structure Ends (y : Moment) (l : SlotId) : Prop where
  before : y.before.leaveSlot? = some l
  after : y.after.leaveSlot? = none
  state : y.after.state? = some .unsubscribed ∨ y.after.state? = some .fatal
  done : y.after.session.slots.outcome? l = some (.ok .done)

/-- The slot `i`, if it exists, has the outcome that it had. -/
def Spared (y : Moment) (i : SlotId) : Prop :=
  i < y.before.session.slots.cells.size →
    y.after.session.slots.outcome? i = y.before.session.slots.outcome? i

/-- The slot `i`, if it exists, has the outcome that it had, or it has been completed with success. -/
def Grants (y : Moment) (i : SlotId) : Prop :=
  i < y.before.session.slots.cells.size →
    y.before.session.slots.Grants y.after.session.slots i

/-- What a moment does to the leave of the member and to the slot `i` of a request to leave. -/
inductive LeaveStep (y : Moment) (i : SlotId) : Prop
  /-- The leave, if there is one, goes on. -/
  | kept (slot : y.after.leaveSlot? = y.before.leaveSlot?)
      (spared : (∀ o, y.cause ≠ .outside o) → y.Spared i)
  /-- There is nothing to leave, and the request is answered at once. -/
  | answered {j : SlotId} (asked : y.asks j) (before : y.before.leaveSlot? = none)
      (after : y.after.leaveSlot? = none) (grants : y.Grants i) (spared : i ≠ j → y.Spared i)
  /-- A leave begins. -/
  | begun {l : SlotId} (before : y.before.leaveSlot? = none) (begins : y.Begins l)
      (spared : y.Spared i)
  /-- The leave ends. -/
  | ended {l : SlotId} (ends : y.Ends l) (grants : y.Grants i)

end Moment

namespace Processor

variable {p q : Processor} {c : Cause} {x : Member} {i : SlotId}

/-- A member that sees its leave through keeps the slot of the request as it is or answers it well. -/
theorem Guarded.concludes (h : p.Guarded i) (hm : p.member = some x) {m : Membership}
    (hc : Membership.Concludes ⟨x, p.session⟩ m) :
    (m.member.leaveSlot = x.leaveSlot ∧ (i < p.session.slots.cells.size →
        m.session.slots.outcome? i = p.session.slots.outcome? i)) ∨
      ∃ l, x.leaveSlot = some l ∧ m.member.leaveSlot = none ∧
        m.session.slots.outcome? l = some (.ok .done) ∧ (i < p.session.slots.cells.size →
          p.session.slots.Grants m.session.slots i) := by
  have hl := leaveSlot?_eq hm
  rcases hc with hk | ⟨k, hk, hn⟩
  · exact Or.inl ⟨hk.leaveSlot, (h.keepsLeave hm hk).2⟩
  · obtain ⟨hpass, houtcome⟩ := h.keepsLeave hm hk
    cases hx : x.leaveSlot with
    | none =>
      rw [Membership.completeLeave_of_none (hk.leaveSlot.trans hx)] at hn
      exact Or.inl ⟨hn.leaveSlot.trans (hk.leaveSlot.trans hx),
        (h.keepsLeave hm (hk.trans hn)).2⟩
    | some l =>
      have hkl : k.member.leaveSlot = some l := hk.leaveSlot.trans hx
      have he : k.completeLeave (.ok ()) =
          ⟨{ k.member with leaveSlot := none }, k.session.complete l (.ok .done)⟩ := by
        rw [Membership.completeLeave, hkl]
        rfl
      have hend := hpass.guarded.completeLeave (m := k) (.ok ())
      rw [he] at hn hend
      -- The slot of the leave is pending until it is completed.
      have hpend : k.session.slots.isPending l = true :=
        (hpass.guarded.leave l hkl).1
      have hdone := Slots.outcome?_settle_self hpend (.ok .done)
      refine Or.inr ⟨l, rfl, hn.leaveSlot, hn.slots.keeps _ _ hdone, fun hi => ?_⟩
      have hilt : i < k.session.slots.cells.size := Nat.lt_of_lt_of_le hi hk.slots.size
      have hled : k.session.slots.LedBy (· = l) i :=
        hpass.guarded.request.mono fun j hj => Option.some.inj (hj.symm.trans hkl)
      have hgrants : k.session.slots.Grants (k.session.slots.settle l (.ok .done)) i := by
        by_cases hne : l = i
        · subst hne
          exact Or.inr ⟨_, hdone⟩
        · exact hled.grants_settle hpend hne _
      have hlast : m.session.slots.outcome? i =
          (k.session.slots.settle l (.ok .done)).outcome? i := by
        refine (hend.guarded.keepsLeave rfl hn).2 ?_
        show i < (k.session.slots.settle l (.ok .done)).cells.size
        rwa [Slots.size_settle]
      exact (Slots.Grants.trans (Or.inl (houtcome hi)) hgrants).trans (Or.inl hlast)

/-- A member in motion that is not asked to leave. -/
theorem Sound.leaveStep_onMember (hp : p.Sound x) (h : p.Guarded i) {f : Membership → Step} {t : Trigger}
    (hu : p.undergo c = (p.onMember f).1)
    (hc : Membership.Concludes ⟨x, p.session⟩ (f ⟨x, p.session⟩).membership)
    (hmove : Move ⟨x, p.session⟩ t (f ⟨x, p.session⟩).membership (f ⟨x, p.session⟩).fault?) :
    Moment.LeaveStep ⟨p, c⟩ i := by
  generalize hm : (f ⟨x, p.session⟩).membership = m at hc hmove
  have ha : Moment.after ⟨p, c⟩ = p.withMembership m := by
    rw [← hm]
    exact hu.trans (congrArg Prod.fst (onMember_eq hp.member f))
  have hal : (Moment.after ⟨p, c⟩).leaveSlot? = m.member.leaveSlot := by
    rw [ha]
    exact leaveSlot?_eq rfl
  have hpl := leaveSlot?_eq hp.member
  have has : (Moment.after ⟨p, c⟩).session = m.session := by
    rw [ha]
    rfl
  rcases h.concludes hp.member hc with ⟨hl, ho⟩ | ⟨l, hxl, hml, hdone, hgrants⟩
  · refine .kept (hal.trans (hl.trans hpl.symm)) fun _ hi => ?_
    rw [has]
    exact ho hi
  · refine .ended (l := l) ⟨hpl.trans hxl, hal.trans hml, ?_, ?_⟩ ?_
    · have hstate := hmove.state_of_ended (by rw [hxl]; rfl) hml
      have hms : (Moment.after ⟨p, c⟩).state? = some m.member.state := by
        rw [ha]
        exact state?_eq rfl
      rw [hms]
      exact hstate.imp (congrArg some) (congrArg some)
    · rw [has]
      exact hdone
    · intro hi
      rw [has]
      exact hgrants hi

/-- A member that is asked to leave, before the ticket is linked to its answer, and with the flag that
it leaves for good or without it. -/
theorem Guarded.leaveStep_leave (h : p.Guarded i) (hm : p.member = some x) {y : Member}
    (hy : y.Coherent) (hys : y.state = x.state) (hyl : y.leaveSlot = x.leaveSlot) {t : Ticket}
    (hasks : Moment.asks ⟨p, c⟩ t.slot) (ht : p.admits t.slot = true)
    (hqs : q.session = (Membership.leave ⟨y, p.session⟩).1.session)
    (hqm : q.member = some (Membership.leave ⟨y, p.session⟩).1.member)
    (hu : p.undergo c =
      q.withSession (·.chain (Membership.leave ⟨y, p.session⟩).2 t.slot)) :
    Moment.LeaveStep ⟨p, c⟩ i := by
  have hl : y.leaveSlot = p.leaveSlot? := hyl.trans (leaveSlot?_eq hm).symm
  have hd := Membership.departs_leave (m := ⟨y, p.session⟩) hy
  have hasked := Membership.asked_leave (m := ⟨y, p.session⟩) hy
  generalize Membership.leave ⟨y, p.session⟩ = r at hqs hqm hu hd hasked
  obtain ⟨n, l⟩ := r
  have hsize : p.session.slots.cells.size ≤ q.session.slots.cells.size := by
    rw [hqs]
    exact hd.proceeds.size
  have hql := leaveSlot?_eq hqm
  obtain ⟨hpass, ho, -⟩ := h.departs (q := q) rfl hl hd hqs hqm
  have ha : Moment.after ⟨p, c⟩ = q.withSession (·.chain l t.slot) := hu
  have hal : (Moment.after ⟨p, c⟩).leaveSlot? = n.member.leaveSlot := by
    rw [ha]
    exact hql
  have hspared (hlink : i < q.session.slots.cells.size →
      (q.withSession (·.chain l t.slot)).session.slots.outcome? i =
        q.session.slots.outcome? i) : Moment.Spared ⟨p, c⟩ i := by
    intro hi
    rw [ha]
    exact (hlink (Nat.lt_of_lt_of_le hi hsize)).trans (ho hi)
  cases hasked with
  | atOnce before after done =>
    have hnone : y.leaveSlot = none := hy.leaveSlot_of_not_isLeaving before
    refine .answered hasks (hl.symm.trans hnone) (hal.trans after) (fun hi => ?_) fun hne => ?_
    · have hled : q.session.slots.LedBy (fun _ => False) i := by
        refine hpass.guarded.request.mono fun j hj => ?_
        cases (hql.trans after).symm.trans hj
      have hdone : q.session.slots.outcome? l = some (.ok .done) := by
        rw [hqs]
        exact done
      rw [ha]
      exact Slots.Grants.trans (Or.inl (ho hi)) (hled.grants_listen hdone t.slot id)
    · refine hspared (hpass.guarded.outcome?_of_worksOn (q := q.withSession (·.chain l t.slot))
        (Session.worksOn_chain q.session l t.slot) (fun j hj => ?_) hne)
      exact hj ▸ hpass.admits _ ht
  | joined before slot same =>
    subst same
    refine .kept (hal.trans hl) fun _ => hspared fun _ => ?_
    exact hpass.guarded.outcome?_chain (hql.trans slot) t.slot
  | begun before after slot new pending =>
    have hnone : y.leaveSlot = none := hy.leaveSlot_of_isActive before
    refine .begun (l := l) (hl.symm.trans hnone)
      ⟨⟨t.slot, hasks⟩, ⟨x, hm, hys ▸ before⟩, new, hal.trans slot⟩ (hspared fun _ => ?_)
    exact hpass.guarded.outcome?_chain (hql.trans slot) t.slot

end Processor

namespace Moment

variable {y : Moment} {i : SlotId}

/-- Whatever happens is a step of the leave. -/
theorem Orderly.leaveStep (h : y.Orderly i) : y.LeaveStep i := by
  obtain ⟨⟨x, hx⟩, hg, hn, hs⟩ := h
  obtain ⟨p, c⟩ := y
  have hstill (hc : c.trigger? p = none) : LeaveStep ⟨p, c⟩ i := by
    refine .kept (hx.steady.leaveSlot?_undergo hc) fun ho => ?_
    exact hg.outcome?_of_worksOn (Processor.worksOn_undergo hc) hn
      (Cause.not_mem_names_of_spares hs hc ho)
  cases c with
  | received e =>
    cases he : e.isLeave with
    | true =>
      obtain ⟨t, z, q, ht, hz, hqs, hqm, hq⟩ := Processor.receive_leave hx.member he
      have hco : z.Coherent := hx.coherent.of_closing hz
      have hsame : z.state = x.state ∧ z.leaveSlot = x.leaveSlot := by
        rcases hz with rfl | rfl <;> exact ⟨rfl, rfl⟩
      have hadmits := hn t.slot (AppEvent.slot_mem_names ht)
      exact hg.leaveStep_leave hx.member hco hsame.1 hsame.2
        (Cause.request?_eq_some.2 ⟨e, t, rfl, he, ht, rfl⟩) hadmits hqs hqm hq
    | false =>
      refine hstill ?_
      cases e with
      | unsubscribe | leaveOnClose => cases he
      | _ => rfl
  | polled =>
    exact hx.leaveStep_onMember hg rfl (Or.inl (Membership.keepsLeave_onPoll _))
      (Membership.move_onPoll _)
  | heard o =>
    exact hx.leaveStep_onMember hg rfl (Membership.concludes_onHeartbeat hx.coherent o)
      (Membership.move_onHeartbeat _ o)
  | advanced now =>
    exact hx.leaveStep_onMember hg rfl
      (Or.inl (Membership.keepsLeave_advanceOnce hx.coherent _ now))
      (Membership.move_advanceOnce _ now hx.coherent)
  | _ => exact hstill rfl

/-- A member on its way out stays so under the slot that it has, or its leave ends. -/
theorem Orderly.ends_or_goes_on (h : y.Orderly i) {s : MemberState}
    (hs : y.before.state? = some s) (hl : s.isLeaving = true) :
    (∃ l, y.Ends l) ∨
      ((∃ s', y.after.state? = some s' ∧ s'.isLeaving = true) ∧
        y.after.leaveSlot? = y.before.leaveSlot?) := by
  obtain ⟨x, hx⟩ := h.sound
  obtain rfl : x.state = s := Option.some.inj ((Processor.state?_eq hx.member).symm.trans hs)
  obtain ⟨l, hxl⟩ := hx.coherent.leaveSlot_of_isLeaving hl
  have hbefore : y.before.leaveSlot? = some l := (Processor.leaveSlot?_eq hx.member).trans hxl
  cases h.leaveStep with
  | kept slot =>
    obtain ⟨z, hz⟩ := hx.undergo y.cause
    have hzl : z.leaveSlot = some l :=
      (Processor.leaveSlot?_eq hz.member).symm.trans (slot.trans hbefore)
    refine Or.inr ⟨⟨z.state, Processor.state?_eq hz.member, ?_⟩, slot⟩
    by_contra hn
    cases (hz.coherent.leaveSlot_of_not_isLeaving (Bool.not_eq_true _ ▸ hn)).symm.trans hzl
  | answered _ before | begun before => cases before.symm.trans hbefore
  | ended ends => exact Or.inl ⟨_, ends⟩

/-- If the processor answers a request to leave, it does so with success, and either the leave is over
by now or there was nothing to leave. -/
def AnswersWhenOver (y : Moment) (i : SlotId) : Prop :=
  (∀ o, y.cause ≠ .outside o) → y.before.session.slots.isPending i = true →
    ∀ o, y.after.session.slots.outcome? i = some o →
      o.isOk = true ∧ y.after.leaveSlot? = none ∧ ((∃ l, y.Ends l) ∨ y.asks i)

theorem Orderly.answersWhenOver (h : y.Orderly i) : y.AnswersWhenOver i := by
  intro hout hpend o ho
  obtain ⟨hi, hnone⟩ := Slots.isPending_iff.1 hpend
  have hspared {P : Prop} (hs : y.Spared i) : P := by
    cases ho.symm.trans ((hs hi).trans hnone)
  cases h.leaveStep with
  | kept _ spared => exact hspared (spared hout)
  | begun _ _ spared => exact hspared spared
  | @answered j asked _ after grants spared =>
    by_cases hij : i = j
    · subst hij
      exact ⟨(grants hi).isOk hnone ho, after, Or.inr asked⟩
    · exact hspared (spared hij)
  | ended ends grants => exact ⟨(grants hi).isOk hnone ho, ends.after, Or.inl ⟨_, ends⟩⟩

end Moment

namespace Chronicle

variable {p : Processor} {k : Chronicle} {i j l : SlotId}

/-- A leave that goes on has gone on since it began, under the slot that was new then. -/
theorem Lived.since_begins (h : Lived p k) (hp : p.leaveSlot? = none) (ho : k.Orderly i)
    (hl : k.present.leaveSlot? = some l) :
    Since (·.before.leaveSlot? = some l) (fun y _ => y.Begins l) k.past := by
  induction h with
  | start => cases hp.symm.trans hl
  | @undergo k h c ih =>
    obtain ⟨hk, hy⟩ := ho.of_cons
    cases hy.leaveStep with
    | kept slot =>
      have hbefore : k.present.leaveSlot? = some l := slot.symm.trans hl
      exact Or.inr ⟨hbefore, ih hk hbefore⟩
    | answered _ _ after => cases after.symm.trans hl
    | @begun l' _ begins =>
      obtain rfl : l' = l := Option.some.inj (begins.slot.symm.trans hl)
      exact Or.inl begins
    | ended ends => cases ends.after.symm.trans hl

/-- The ticket of a request that was processed is complete or linked to the leave. -/
theorem Lived.leaves (h : Lived p k) (hp : p.Fit) (ho : k.Orderly j)
    (ha : ∃ z ∈ k.past, z.asks i) : k.present.Ready i ∧ k.present.Leaves i := by
  induction h with
  | start =>
    obtain ⟨z, hz, -⟩ := ha
    cases hz
  | @undergo k h c ih =>
    obtain ⟨hk, hy⟩ := ho.of_cons
    obtain ⟨z, hz, hasks⟩ := ha
    rcases List.mem_cons.1 hz with rfl | hz
    · obtain ⟨e, t, rfl, hleave, ht, rfl⟩ := Cause.request?_eq_some.1 hasks
      obtain ⟨x, hx⟩ := hy.sound
      have hlt := (Processor.admits_iff.1 (hy.names t.slot (AppEvent.slot_mem_names ht))).1
      have hready : k.present.Ready t.slot := ⟨h.fit hp, hlt⟩
      obtain ⟨g, hc⟩ := Processor.trigger?_of_isLeave k.present hleave
      exact ⟨hready.undergo (.received e), (hx.steady.motion hc).leaves hready ht⟩
    · obtain ⟨hready, hleaves⟩ := ih hk ⟨z, hz, hasks⟩
      refine ⟨hready.undergo c, ?_⟩
      by_cases hc : c = .lookups
      · subst hc
        exact hleaves
      · exact Processor.kept_leaves i _ c hready hc hleaves

/-- A member on its way out has one slot for all requests to leave. It was made when the leave began,
and it is pending. What a member hands out that is asked to leave is that slot, or one that has
succeeded already. -/
structure SharesLeave (k : Chronicle) (x : Member) : Prop where
  member : k.present.member = some x
  leaving : x.state.isLeaving = true → ∃ l, x.leaveSlot = some l ∧
    k.present.session.slots.isPending l = true ∧
    Since (·.before.leaveSlot? = some l) (fun y _ => y.Begins l) k.past
  leave :
    let m : Membership := ⟨x, k.present.session⟩
    m.Asked m.leave.2 m.leave.1
  leaveOnClose :
    let m : Membership := ⟨x, k.present.session⟩
    Membership.Asked (m.withMember fun x => { x with closing := true })
      m.leaveOnClose.2 m.leaveOnClose.1

theorem Lived.sharesLeave (h : Lived p k) (hp : p.leaveSlot? = none) (ho : k.Orderly i) :
    ∃ x, k.SharesLeave x := by
  obtain ⟨x, hx⟩ := ho.sound
  have hclosing : Member.Coherent { x with closing := true } := hx.coherent
  refine ⟨x, hx.member, fun hs => ?_, Membership.asked_leave hx.coherent,
    Membership.asked_leave (m := ⟨{ x with closing := true }, k.present.session⟩) hclosing⟩
  obtain ⟨l, hl⟩ := hx.coherent.leaveSlot_of_isLeaving hs
  have hpl : k.present.leaveSlot? = some l := (Processor.leaveSlot?_eq hx.member).trans hl
  exact ⟨l, hl, (ho.guarded.leave l hpl).1, h.since_begins hp ho hpl⟩

end Chronicle

namespace Setup

/-- Requests to leave share one slot while the member is on its way out. The slot is completed with
success in the very step in which the member is no longer on its way out. By then the tickets of all
requests are complete, and none that is used for such requests only is completed earlier. -/
theorem leave_shared (u : Setup) (as : List Action) (hd : (u.begin true).discreet as = true) :
    (∀ k ∈ (u.record true as).points, ∃ x, k.SharesLeave x) ∧
      (∀ y ∈ (u.record true as).past, ∀ s, y.before.state? = some s → s.isLeaving = true →
        (∃ l, y.Ends l) ∨ ((∃ s', y.after.state? = some s' ∧ s'.isLeaving = true) ∧
          y.after.leaveSlot? = y.before.leaveSlot?)) ∧
      (∀ i, Throughout (fun y earlier => (∃ z ∈ y :: earlier, z.asks i) →
        y.after.leaveSlot? = none → y.after.session.slots.isDone i = true)
          (u.record true as).past) ∧
      ∀ i, (∀ a ∈ as, a.spares i = true) →
        ∀ y ∈ (u.record true as).past, y.AnswersWhenOver i := by
  -- The leave itself does not depend on which request is looked at.
  obtain ⟨j, hj⟩ := exists_spared as
  have ho := u.orderly hd hj
  have hlived := u.lived_record true as
  refine ⟨fun k hk => ?_, fun y hy s hs hl => ?_, fun i later y earlier hk ha hy => ?_,
    fun i hi y hy => ?_⟩
  · exact (hlived.of_mem_points hk).sharesLeave rfl (ho.of_mem_points hk)
  · exact (ho.past y hy).ends_or_goes_on hs hl
  · obtain ⟨hearlier, hmoment⟩ := ho.at_moment hk
    have hlater := hearlier.undergo hmoment.names hmoment.spares
    have hleaves := ((hlived.at_moment hk).undergo y.cause).leaves (u.fit_begin true) hlater ha
    rcases hleaves.2 with hdone | ⟨l, hl, -⟩
    · exact hdone
    · cases hy.symm.trans hl
  · exact ((u.orderly hd hi).past y hy).answersWhenOver

/-- A consumer that unsubscribes is also told to leave for good, before its listener has run. -/
def departingTwice : List Action :=
  departingSteps ++ [.outside .fresh, .process (.leaveOnClose (ticketAt 6))]

/-- Both requests are answered in the step in which the member is fenced. -/
theorem leave_shared_by_two :
    let k := heartbeatSetup.record true (departingTwice ++ hears .fenced)
    ∃ y ∈ k.past, (∃ l, y.Ends l) ∧
      ∀ i ∈ [3, 6], y.before.session.slots.isPending i = true ∧
        ∃ o, y.after.session.slots.outcome? i = some o ∧ o.isOk = true := by
  intro k
  have hd : (heartbeatSetup.begin true).discreet (departingTwice ++ hears .fenced) = true := by
    decide +kernel
  have hs : ∀ i ∈ [3, 6], ∀ a ∈ departingTwice ++ hears .fenced, a.spares i = true := by
    decide +kernel
  have hp : k.past[3]?.map (fun y => (y.before.state?, y.after.state?, y.after.leaveSlot?)) =
      some (some .prepareLeaving, some .unsubscribed, none) := by decide +kernel
  have hc : k.past[3]?.any (fun y => (y.cause.trigger? y.before).isSome) = true := by decide +kernel
  have hq : ∀ i ∈ [3, 6], k.past[3]?.any (·.before.session.slots.isPending i) = true := by
    decide +kernel
  have ha : ∀ i ∈ [3, 6], ∃ z ∈ k.past.drop 4, z.cause.request? = some i := by decide +kernel
  obtain ⟨y, hy, hpy⟩ := Option.map_eq_some_iff.1 hp
  have hstate : y.before.state? = some .prepareLeaving := congrArg Prod.fst hpy
  have hleft : y.after.state? = some .unsubscribed := congrArg (·.2.1) hpy
  have hafter : y.after.leaveSlot? = none := congrArg (·.2.2) hpy
  have hmem : y ∈ k.past := List.mem_of_getElem? hy
  rw [hy] at hc hq
  have hout : ∀ o, y.cause ≠ .outside o := by
    intro o ho
    rw [Option.any_some, ho] at hc
    cases hc
  obtain ⟨-, hends, hall, honly⟩ := leave_shared heartbeatSetup _ hd
  refine ⟨y, hmem, ?_, fun i hi => ⟨hq i hi, ?_⟩⟩
  · rcases hends y hmem _ hstate rfl with h | ⟨⟨s, hs, hleaving⟩, -⟩
    · exact h
    · obtain rfl := Option.some.inj (hs.symm.trans hleft)
      cases hleaving
  · obtain ⟨z, hz, hasks⟩ := ha i hi
    have hdone := hall i _ y _ (past_eq_of_getElem? hy) ⟨z, List.mem_cons_of_mem _ hz, hasks⟩ hafter
    obtain ⟨o, ho⟩ := Option.isSome_iff_exists.1 hdone
    exact ⟨o, ho, (honly i (hs i hi) y hmem hout (hq i hi) o ho).1⟩

end Setup

end GroupConsumer
