import GroupConsumer.Proofs.Member.Move
import GroupConsumer.Proofs.Session.Twins

/-!
# Members that are alike but for a few slots

Two memberships are twins if the members are the same and the sessions are twins. Whatever a member
does then comes out alike for both (`EndsAlike`): both go on, or both stop with the same fault. The one
place where a member looks at a slot is the step of reconciliation, which asks whether the slot of the
stage is complete (`Twins.advance`).
-/

namespace GroupConsumer

/-- The members are the same, and the sessions are twins. -/
structure Membership.Twins (D : SlotId → Prop) (m n : Membership) : Prop where
  member : n.member = m.member
  session : m.session.Twins D n.session

/-- Both operations go on, with results that `R` relates, or both stop with the same fault. -/
inductive EndsAlike {α : Type} (D : SlotId → Prop) (R : α → α → Prop) :
    Except Stopped α → Except Stopped α → Prop
  | ok {a b : α} (h : R a b) : EndsAlike D R (.ok a) (.ok b)
  | error (f : Fault) {m n : Membership} (h : m.Twins D n) :
      EndsAlike D R (.error ⟨f, m⟩) (.error ⟨f, n⟩)

namespace EndsAlike

variable {α β : Type} {D : SlotId → Prop} {R : α → α → Prop} {S : β → β → Prop}
  {r r' : Except Stopped α}

theorem bind (h : EndsAlike D R r r') {f g : α → Except Stopped β}
    (hf : ∀ a b, R a b → EndsAlike D S (f a) (g b)) : EndsAlike D S (r >>= f) (r' >>= g) := by
  cases h with
  | ok h => exact hf _ _ h
  | error f h => exact .error f h

theorem map (h : EndsAlike D R r r') {f : α → β} (hf : ∀ a b, R a b → S (f a) (f b)) :
    EndsAlike D S (r.map f) (r'.map f) := by
  cases h with
  | ok h => exact .ok (hf _ _ h)
  | error f h => exact .error f h

/-- Where operations on memberships end, they leave twins. -/
theorem membership {r r' : Step} (h : EndsAlike D (Membership.Twins D) r r') :
    r.membership.Twins D r'.membership := by
  cases h with
  | ok h => exact h
  | error f h => exact h

end EndsAlike

namespace Membership

variable {D : SlotId → Prop} {m n : Membership}

namespace Twins

theorem withMember (h : Twins D m n) (f : Member → Member) :
    Twins D (m.withMember f) (n.withMember f) := ⟨congrArg f h.member, h.session⟩

theorem completeUnit (h : Twins D m n) (i : SlotId) (r : Except Fault Unit) :
    Twins D (m.withSession (·.completeUnit i r)) (n.withSession (·.completeUnit i r)) :=
  ⟨h.member, h.session.complete i _⟩

theorem publish (h : Twins D m n) (e : BackgroundEvent) :
    Twins D (m.withSession (·.publish e)) (n.withSession (·.publish e)) :=
  ⟨h.member, h.session.publish e e⟩

theorem unsubscribe (h : Twins D m n) : Twins D m.unsubscribe n.unsubscribe :=
  ⟨h.member, h.session.withSubscription _⟩

theorem snapshot (h : Twins D m n) : n.snapshot = m.snapshot := by
  rw [Membership.snapshot, Membership.snapshot, h.member, h.session.subscription]

/-! ### Parts -/

theorem enter (h : Twins D m n) (next : MemberState) :
    EndsAlike D (Twins D) (m.enter next) (n.enter next) := by
  unfold Membership.enter
  rw [h.member]
  simp only
  split
  · exact .ok (h.withMember _)
  · exact .error _ h

theorem join (h : Twins D m n) : EndsAlike D (Twins D) m.join n.join :=
  (h.enter .joining).bind fun _ _ hk => .ok (hk.withMember _)

theorem assignInSubscription (h : Twins D m n) (parts : PartitionSet) :
    EndsAlike D (Twins D) (m.assignInSubscription parts) (n.assignInSubscription parts) := by
  unfold Membership.assignInSubscription
  rw [h.session.subscription]
  split
  · exact .ok ⟨h.member, h.session.withSubscription fun _ => _⟩
  · exact .error _ h

theorem release (h : Twins D m n) : EndsAlike D (Twins D) m.release n.release := by
  have hk := h.withMember fun x => { x with owned := ∅ }
  unfold Membership.release
  simp only [hk.session.subscription]
  split
  · exact hk.assignInSubscription ∅
  · exact .ok hk

theorem requestCallback (h : Twins D m n) (method : ListenerMethod) (parts : PartitionSet) :
    Twins D (m.requestCallback method parts).1 (n.requestCallback method parts).1 ∧
      (n.requestCallback method parts).2 = (m.requestCallback method parts).2 :=
  ⟨⟨h.member, h.session.fresh.1.publish _ _⟩, h.session.fresh.2⟩

/-- Members that wait for a callback wait for the same one. -/
theorem waitFor (h : Twins D m n) (method : ListenerMethod) (parts : PartitionSet)
    (f : SlotId → Member → Member) :
    Twins D
      ((m.requestCallback method parts).1.withMember (f (m.requestCallback method parts).2))
      ((n.requestCallback method parts).1.withMember (f (n.requestCallback method parts).2)) := by
  obtain ⟨hk, hi⟩ := h.requestCallback method parts
  rw [hi]
  exact hk.withMember _

theorem completeLeave (h : Twins D m n) (r : Except Fault Unit) :
    Twins D (m.completeLeave r) (n.completeLeave r) := by
  unfold Membership.completeLeave
  rw [h.member]
  split
  · exact ⟨rfl, h.session.complete _ _⟩
  · exact h

theorem startLeaving (h : Twins D m n) :
    EndsAlike D (Twins D) m.startLeaving n.startLeaving :=
  (h.unsubscribe.withMember _).enter .leaving

/-- The slot of a leave is completed whether the member can leave or not. -/
theorem finishLeaving (h : Twins D m n) :
    EndsAlike D (Twins D) m.finishLeaving n.finishLeaving := by
  have hk := (h.unsubscribe.withMember fun x =>
    { x with owned := ∅, epoch := joinEpoch, stage := .idle }).enter .unsubscribed
  unfold Membership.finishLeaving
  simp only
  generalize Membership.enter _ .unsubscribed = r at hk ⊢
  generalize Membership.enter _ .unsubscribed = r' at hk ⊢
  cases hk with
  | ok hk => exact .ok (hk.completeLeave _)
  | error f hk => exact .error f (hk.completeLeave _)

theorem forget (h : Twins D m n) : Twins D m.forget n.forget := h.unsubscribe.withMember _

/-! ### Leaving -/

theorem leaveAtOnce (h : Twins D m n) (r : Except Fault Unit) :
    Twins D (m.leaveAtOnce r).1 (n.leaveAtOnce r).1 ∧
      (n.leaveAtOnce r).2 = (m.leaveAtOnce r).2 := by
  obtain ⟨hs, hi⟩ := h.session.freshWith (r.map fun _ => .done)
  exact ⟨⟨h.member, hs⟩, hi⟩

theorem beginLeave (h : Twins D m n) :
    Twins D m.beginLeave.1 n.beginLeave.1 ∧ n.beginLeave.2 = m.beginLeave.2 := by
  have he := h.enter .prepareLeaving
  unfold Membership.beginLeave
  generalize m.enter .prepareLeaving = r at he ⊢
  generalize n.enter .prepareLeaving = r' at he ⊢
  cases he with
  | error f hk => exact hk.leaveAtOnce _
  | @ok a b hk =>
    obtain ⟨hf, hi⟩ := hk.session.fresh
    have hab : Twins D ⟨a.member, a.session.fresh.1⟩ ⟨b.member, b.session.fresh.1⟩ :=
      ⟨hk.member, hf⟩
    have hb : Twins D
        (Membership.withMember ⟨a.member, a.session.fresh.1⟩ fun x =>
          { x with leaveSlot := some a.session.fresh.2, target := none, stage := .idle })
        (Membership.withMember ⟨b.member, b.session.fresh.1⟩ fun x =>
          { x with leaveSlot := some b.session.fresh.2, target := none, stage := .idle }) := by
      rw [hi]
      exact hab.withMember _
    simp only [hb.member]
    split
    · have hs := hb.startLeaving
      generalize Membership.startLeaving _ = r at hs ⊢
      generalize Membership.startLeaving _ = r' at hs ⊢
      cases hs with
      | ok hs => exact ⟨hs, hi⟩
      | error f hs =>
        refine ⟨?_, hi⟩
        simp only [hi]
        exact hs.completeUnit _ _
    · exact ⟨hb.waitFor _ _ fun i x => { x with stage := .leavingRevoke i }, hi⟩

theorem leave (h : Twins D m n) : Twins D m.leave.1 n.leave.1 ∧ n.leave.2 = m.leave.2 := by
  unfold Membership.leave
  rw [h.member]
  split
  · exact h.forget.leaveAtOnce _
  · exact h.forget.leaveAtOnce _
  · have hk := (h.withMember fun x => { x with stage := .idle }).forget.enter .unsubscribed
    simp only
    generalize Membership.enter _ .unsubscribed = r at hk ⊢
    generalize Membership.enter _ .unsubscribed = r' at hk ⊢
    cases hk with
    | ok hk => exact hk.leaveAtOnce _
    | error f hk => exact hk.leaveAtOnce _
  · exact ⟨h, rfl⟩
  · exact ⟨h, rfl⟩
  · exact h.beginLeave

theorem leaveOnClose (h : Twins D m n) :
    Twins D m.leaveOnClose.1 n.leaveOnClose.1 ∧ n.leaveOnClose.2 = m.leaveOnClose.2 :=
  (h.withMember _).leave

/-! ### Polls and heartbeats -/

theorem onPoll (h : Twins D m n) : EndsAlike D (Twins D) m.onPoll n.onPoll := by
  have hk := h.withMember fun x => { x with subscriptionUpdated := false }
  unfold Membership.onPoll
  simp only [h.member, hk.member]
  split
  · exact hk.join
  · exact .ok hk

theorem afterLost (h : Twins D m n) : EndsAlike D (Twins D) m.afterLost n.afterLost := by
  refine h.release.bind fun a b hk => ?_
  rw [hk.member, hk.session.subscription]
  split
  · exact hk.enter .unsubscribed
  · exact hk.join

theorem identify (h : Twins D m n) (memberId : String) (epoch : Int) :
    Twins D (m.identify memberId epoch) (n.identify memberId epoch) := by
  unfold Membership.identify
  rw [h.member]
  split
  · exact (h.withMember _).publish _
  · exact h

theorem retarget (h : Twins D m n) (target : PartitionSet) :
    EndsAlike D (Twins D) (m.retarget target) (n.retarget target) := by
  have hk := h.withMember fun x => { x with target := some target }
  unfold Membership.retarget
  simp only [h.member, hk.member]
  split
  · exact .ok h
  · split
    · exact .ok hk
    · exact hk.enter .reconciling

theorem onSuccess (h : Twins D m n) (memberId : String) (epoch : Int)
    (assignment : Option PartitionSet) :
    EndsAlike D (Twins D) (m.onSuccess memberId epoch assignment)
      (n.onSuccess memberId epoch assignment) := by
  have hk := h.identify memberId epoch
  cases ha : m.member.state.isActive with
  | false =>
    rw [onSuccess_of_not_isActive ha, onSuccess_of_not_isActive (by rwa [h.member])]
    exact .ok h
  | true =>
    rw [onSuccess_of_isActive ha, onSuccess_of_isActive (by rwa [h.member])]
    cases assignment with
    | none => exact .ok hk
    | some target => exact hk.retarget target

theorem onRequestSent (h : Twins D m n) (epoch : Int) :
    EndsAlike D (Twins D) (m.onRequestSent epoch) (n.onRequestSent epoch) := by
  unfold Membership.onRequestSent
  rw [h.member]
  split
  · exact h.enter .stable
  · split
    · exact h.finishLeaving
    · exact .ok h
  · exact .ok h

theorem onFenced (h : Twins D m n) : EndsAlike D (Twins D) m.onFenced n.onFenced := by
  have he := h.enter .fenced
  unfold Membership.onFenced
  rw [h.member]
  cases m.member.state with
  | unsubscribed | fenced | fatal => exact .ok h
  | prepareLeaving | leaving => exact he.bind fun _ _ hk => hk.finishLeaving
  | joining | reconciling | acknowledging | stable =>
    refine he.bind fun a b hk => ?_
    have hidle := hk.withMember fun x =>
      { x with epoch := joinEpoch, target := none, stage := .idle }
    simp only [hidle.member]
    split
    · exact hidle.afterLost
    · exact .ok (hidle.waitFor _ _ fun i x => { x with stage := .lost i })

theorem onFatal (h : Twins D m n) (f : Fault) :
    EndsAlike D (Twins D) (m.onFatal f) (n.onFatal f) := by
  unfold Membership.onFatal
  rw [h.member]
  split
  · exact .ok h
  · refine (h.enter .fatal).bind fun a b hk => ?_
    refine (hk.withMember fun x => { x with target := none, stage := .idle }).release.bind
      fun a b hr => ?_
    exact .ok ((hr.completeLeave _).publish _)

theorem onHeartbeat (h : Twins D m n) (o : HeartbeatOutcome) :
    EndsAlike D (Twins D) (m.onHeartbeat o) (n.onHeartbeat o) := by
  cases o with
  | success memberId epoch assignment => exact h.onSuccess memberId epoch assignment
  | fenced => exact h.onFenced
  | fatal f => exact h.onFatal f
  | requestSent epoch => exact h.onRequestSent epoch

theorem onCallbackDone (h : Twins D m n) (slot : SlotId) (fault : Option Fault) :
    Twins D (m.onCallbackDone slot fault) (n.onCallbackDone slot fault) :=
  h.completeUnit slot _

/-! ### Reconciliation -/

theorem completeReconciliation (h : Twins D m n) (target : PartitionSet) :
    EndsAlike D (Twins D) (m.completeReconciliation target) (n.completeReconciliation target) := by
  unfold Membership.completeReconciliation
  rw [h.member]
  split
  · exact .ok h
  · exact (h.withMember fun x => { x with target := none }).enter .acknowledging

theorem applyTarget (h : Twins D m n) (target : PartitionSet) :
    EndsAlike D (Twins D) (m.applyTarget target) (n.applyTarget target) := by
  unfold Membership.applyTarget
  rw [h.member]
  refine (h.assignInSubscription target).bind fun a b hk => ?_
  have ho := hk.withMember fun x => { x with owned := target }
  simp only
  split
  · exact ho.completeReconciliation target
  · exact .ok (ho.waitFor _ _ fun i x => { x with stage := .assigning i target })

theorem revokeThenAssign (h : Twins D m n) (target : PartitionSet) :
    EndsAlike D (Twins D) (m.revokeThenAssign target) (n.revokeThenAssign target) := by
  unfold Membership.revokeThenAssign
  rw [h.member]
  simp only
  split
  · exact h.applyTarget target
  · exact .ok (h.waitFor _ _ fun i x => { x with stage := .revoking i target })

theorem commitBeforeRevocation (h : Twins D m n) (now : Int64) (target : PartitionSet) :
    Twins D (m.commitBeforeRevocation now target) (n.commitBeforeRevocation now target) := by
  let consumed := m.session.subscription.consumed
  let deadline := deadlineAfter now m.member.callbackTimeout
  obtain ⟨hs, hi⟩ :=
    h.session.ask .commitBeforeRevocation (.commitBeforeRevocation consumed deadline)
  unfold Membership.commitBeforeRevocation
  simp only [h.member, h.session.subscription]
  rw [hi]
  exact ⟨rfl, hs⟩

/-- Steps of reconciliation that come out alike: both leave twins, and both are the last ones or not. -/
def Advances (D : SlotId → Prop) (a b : Membership × Bool) : Prop :=
  a.1.Twins D b.1 ∧ b.2 = a.2

theorem startReconciliation (h : Twins D m n) (commits : Bool) (now : Int64) :
    EndsAlike D (Advances D) (m.startReconciliation commits now)
      (n.startReconciliation commits now) := by
  unfold Membership.startReconciliation
  rw [h.member]
  split
  · split
    · exact .ok ⟨h.commitBeforeRevocation now _, rfl⟩
    · exact (h.revokeThenAssign _).map fun _ _ hk => ⟨hk, rfl⟩
  · exact .ok ⟨h, rfl⟩

/-- A step of reconciliation, if the slot of the stage is complete in both sessions or in neither. -/
theorem advance (h : Twins D m n)
    (hd : ∀ i, m.member.stage.slot? = some i →
      n.session.slots.isDone i = m.session.slots.isDone i) (commits : Bool) (now : Int64) :
    EndsAlike D (Advances D) (m.advance commits now) (n.advance commits now) := by
  have hk := h.withMember fun x => { x with stage := .idle }
  have hw : (m.member.stage.slot?.any fun i => !n.session.slots.isDone i) =
      m.member.stage.slot?.any fun i => !m.session.slots.isDone i := by
    cases hi : m.member.stage.slot? with
    | none => rfl
    | some i => simp only [Option.any_some, hd i hi]
  have hlast {r r' : Step} (hr : EndsAlike D (Twins D) r r') (b : Bool) :
      EndsAlike D (Advances D) (r.map (·, b)) (r'.map (·, b)) :=
    hr.map fun _ _ hk => ⟨hk, rfl⟩
  unfold Membership.advance
  simp only [h.member, hw]
  split
  · exact .ok ⟨h, rfl⟩
  · split
    · exact hk.startReconciliation commits now
    · exact hlast (hk.revokeThenAssign _) true
    · exact hlast (hk.applyTarget _) true
    · exact hlast (hk.completeReconciliation _) true
    · have hs := hk.startLeaving
      generalize Membership.startLeaving _ = r at hs ⊢
      generalize Membership.startLeaving _ = r' at hs ⊢
      cases hs with
      | ok hs => exact .ok ⟨hs, rfl⟩
      | error f hs => exact .error f (hs.completeLeave _)
    · exact hlast hk.afterLost false

end Twins

end Membership

end GroupConsumer
