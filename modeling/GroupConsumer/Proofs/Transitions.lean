import GroupConsumer.Proofs.Joining
import GroupConsumer.Proofs.Member.Ending
import GroupConsumer.Proofs.Settling

/-!
# No transition is refused

A member only ever attempts a transition that the state it is in allows: coherence ties what it is busy
with to its state, and so to what it may enter next. A refused transition would stop the operation with
a fault, or complete the slot that a request to leave is given. No operation does so (`Admitted`): the
state goes its way by transitions that are allowed (`MemberState.Passes`), and the only fault that any
operation stops with is that the subscription does not take a target (`Stopped.Unserved`).
-/

namespace GroupConsumer

namespace MemberState

/-- A member that takes part may take on a target, and it may be fenced. -/
theorem canEnter_of_isActive {s : MemberState} (h : s.isActive = true) :
    s.canEnter .reconciling = true ∧ s.canEnter .fenced = true := by
  revert h
  cases s <;> decide

/-- A member may fail in any state, unless it has failed already. -/
theorem canEnter_fatal {s : MemberState} (h : s ≠ .fatal) : s.canEnter .fatal = true := by
  revert h
  cases s <;> decide

/-- One state leads to another: by no transition, by one, or by two of which the first enters a state
that is left at once. All of them are allowed. -/
inductive Passes (s : MemberState) : MemberState → Prop
  | stays : Passes s s
  | enters {t : MemberState} (h : s.canEnter t = true) : Passes s t
  | through {u t : MemberState} (hu : u = .fenced ∨ u = .prepareLeaving)
      (h : s.canEnter u = true) (h' : u.canEnter t = true) : Passes s t

end MemberState

/-- The group does not serve the subscription, which therefore takes no partitions from it. -/
def Stopped.Unserved (e : Stopped) : Prop :=
  e.membership.session.subscription.isAuto = false ∧
    e.fault = .illegalState (.groupAssignmentOf e.membership.session.subscription.form)

namespace Move

variable {m m' : Membership} {t : Trigger} {f : Option Fault}

/-- Whatever a member does, its state goes by transitions that are allowed. -/
theorem passes (h : Move m t m' f) (hc : m.member.Coherent) :
    m.member.state.Passes m'.member.state := by
  have hconclude {x : Member} (hx : x.state = m.member.state) (hs : m.member.state = .reconciling)
      (target : PartitionSet) : m.member.state.Passes (x.conclude target).state := by
    obtain h | h := x.state_conclude target
    · rw [h, hs]
      exact .enters rfl
    · rw [h, hx]
      exact .stays
  cases h with
  | rest | noted | identified | forgot | committing | revoking | assigning | refused => exact .stays
  | joined h =>
    rw [h.2.1]
    exact .enters rfl
  | retargeted ha => exact .enters (MemberState.canEnter_of_isActive ha).1
  | settled h =>
    rw [h]
    exact .enters rfl
  | finished h =>
    obtain ⟨h, -⟩ | ⟨h, -⟩ := h
    · rw [h]
      exact .enters rfl
    · obtain h | h := MemberState.eq_of_isLeaving h
      · rw [h]
        exact .through (Or.inl rfl) rfl rfl
      · rw [h]
        exact .through (Or.inl rfl) rfl rfl
  | fenced ha => exact .enters (MemberState.canEnter_of_isActive ha).2
  | dropped h =>
    have hloss : MemberState.fenced.canEnter
        (m.member.stateAfterLoss m.session.subscription.isAuto) = true := by
      obtain hs | hs := m.member.stateAfterLoss_eq m.session.subscription.isAuto <;>
        rw [hs] <;> decide
    obtain ⟨-, ha, -⟩ | ⟨_, _, i, -, hg, -⟩ := h
    · exact .through (Or.inl rfl) (MemberState.canEnter_of_isActive ha).2 hloss
    · have hs := hc.state_of_stage
      rw [hg] at hs
      rw [hs]
      exact .enters hloss
  | failed h => exact .enters (MemberState.canEnter_fatal h)
  | abandoned h =>
    rw [h]
    exact .enters rfl
  | departed ha => exact .through (Or.inr rfl) (Membership.canEnter_prepareLeaving ha) rfl
  | departing ha => exact .enters (Membership.canEnter_prepareLeaving ha)
  | vacated hg =>
    have hs := hc.state_of_stage
    rw [hg] at hs
    rw [hs]
    exact .enters rfl
  | @applied _ _ target h =>
    exact hconclude (x := { m.member with owned := target, stage := .idle }) rfl (h.reconciling hc) _
  | completed hg =>
    have hs := hc.state_of_stage
    rw [hg] at hs
    exact hconclude (x := { m.member with stage := .idle }) rfl hs _

/-- The only fault that a member stops with is that the subscription does not take a target. -/
theorem fault_cases (h : Move m t m' f) :
    f = none ∨ ((∃ commits now, t = .advanced commits now) ∧
      m'.session.subscription.isAuto = false ∧
      f = some (.illegalState (.groupAssignmentOf m'.session.subscription.form))) := by
  cases h with
  | refused _ hauto => exact Or.inr ⟨⟨_, _, rfl⟩, hauto, rfl⟩
  | _ => exact Or.inl rfl

end Move

namespace Membership

variable {m : Membership}

/-- What a member does when it is set in motion. -/
def perform (m : Membership) : Trigger → Step
  | .polled => m.onPoll
  | .heard outcome => m.onHeartbeat outcome
  | .advanced commits now => m.advanceOnce commits now
  | .left => .ok m.leave.1

theorem move_perform (h : m.member.Coherent) (t : Trigger) :
    Move m t (m.perform t).membership (m.perform t).fault? := by
  cases t with
  | polled => exact move_onPoll m
  | heard outcome => exact move_onHeartbeat m outcome
  | advanced commits now => exact move_advanceOnce commits now h
  | left => exact move_leave h

/-- Whatever the member is told next, no transition that it attempts is refused. Its state passes by
allowed transitions. A poll, the outcome of a heartbeat and a leave are seen through, and what is left
stops only if the subscription does not take a target. The slot that a request to leave is given has
not failed, unless somebody else has failed the slot of the leave that goes on. -/
structure Admitted (m : Membership) : Prop where
  passes : ∀ t, m.member.state.Passes (m.perform t).membership.member.state
  passesOnClose : m.member.state.Passes m.leaveOnClose.1.member.state
  fault : ∀ t e, m.perform t = .error e → (∃ commits now, t = .advanced commits now) ∧ e.Unserved
  reconcile : ∀ commits now e, m.reconcile commits now = .error e → e.Unserved
  leave : ∀ f, m.leave.1.session.slots.outcome? m.leave.2 = some (.error f) →
    m.member.leaveSlot = some m.leave.2 ∧ m.session.slots.outcome? m.leave.2 = some (.error f)
  leaveOnClose : ∀ f, m.leaveOnClose.1.session.slots.outcome? m.leaveOnClose.2 = some (.error f) →
    m.member.leaveSlot = some m.leaveOnClose.2 ∧
      m.session.slots.outcome? m.leaveOnClose.2 = some (.error f)

theorem unserved_of_perform (h : m.member.Coherent) {t : Trigger} {e : Stopped}
    (he : m.perform t = .error e) : (∃ commits now, t = .advanced commits now) ∧ e.Unserved := by
  have hm := move_perform h t
  rw [he] at hm
  obtain hf | ⟨ht, hauto, hf⟩ := hm.fault_cases
  · cases hf
  · exact ⟨ht, hauto, Option.some.inj hf⟩

/-- A row of steps stops where one of them does. -/
theorem unserved_of_advanceWithin (h : m.member.Coherent) {commits : Bool} {now : Int64} {n : Nat}
    {e : Stopped} (he : m.advanceWithin commits now n = .error e) : e.Unserved := by
  induction n generalizing m with
  | zero => cases he
  | succ n ih =>
    rw [advanceWithin] at he
    cases hadv : m.advance commits now with
    | error e' =>
      rw [hadv] at he
      cases he
      have honce : m.perform (.advanced commits now) = .error e := by
        rw [perform, advanceOnce, hadv]
        rfl
      exact (unserved_of_perform h honce).2
    | ok r =>
      obtain ⟨m', more⟩ := r
      rw [hadv] at he
      cases more with
      | false => cases he
      | true => exact ih ((move_of_advance h hadv).coherent h) he

/-- A leave hands out a failed slot only if it is the slot of the leave that goes on. -/
theorem leaveSlot_of_failed (h : m.member.Coherent) {f : Fault}
    (hf : m.leave.1.session.slots.outcome? m.leave.2 = some (.error f)) :
    m.member.leaveSlot = some m.leave.2 ∧
      m.session.slots.outcome? m.leave.2 = some (.error f) := by
  cases asked_leave h with
  | atOnce _ _ done => cases done.symm.trans hf
  | joined _ slot same =>
    rw [same] at hf
    exact ⟨slot, hf⟩
  | begun _ _ _ _ pending => cases (Slots.isPending_iff.1 pending).2.symm.trans hf

theorem admitted (h : m.member.Coherent) : m.Admitted where
  passes t := (move_perform h t).passes h
  passesOnClose :=
    (move_leave (m := m.withMember fun x => { x with closing := true }) h).passes h
  fault _ _ he := unserved_of_perform h he
  reconcile _ _ _ he := unserved_of_advanceWithin h he
  leave _ hf := leaveSlot_of_failed h hf
  leaveOnClose _ hf :=
    leaveSlot_of_failed (m := m.withMember fun x => { x with closing := true }) h hf

end Membership

/-- In the course of a run the state of the member goes by transitions that are allowed. -/
theorem Chronicle.Lived.passes {p : Processor} {k : Chronicle} {x : Member} (h : Lived p k)
    (hp : p.Sound x) {y : Moment} (hy : y ∈ k.past) :
    ∃ s s', y.before.state? = some s ∧ y.after.state? = some s' ∧ s.Passes s' := by
  obtain ⟨later, earlier, hk⟩ := List.append_of_mem hy
  obtain ⟨x, hx⟩ := (h.at_moment hk).sound hp
  obtain ⟨z, hz⟩ := hx.undergo y.cause
  refine ⟨x.state, z.state, Processor.state?_eq hx.member, Processor.state?_eq hz.member, ?_⟩
  obtain ⟨-, hlike⟩ | ⟨t, w, s, f, -, hlike, hc, hmove, -⟩ :=
    (hx.turn y.cause).still_or_moved hx.coherent hz.member
  · rw [hlike.state]
    exact .stays
  · rw [← hlike.state]
    exact hmove.passes hc

namespace Setup

/-- No transition that a member attempts is ever refused, whatever it is told and at whatever point of a
run. As long as everybody uses the slots that belong to them, no request to leave is given a slot that
has failed. -/
theorem transitions_admitted (u : Setup) (as : List Action) :
    (∀ k ∈ (u.record true as).points, ∃ x, k.present.member = some x ∧
      let m : Membership := ⟨x, k.present.session⟩
      m.Admitted ∧ ((u.begin true).discreet as = true → ∀ f,
        m.leave.1.session.slots.outcome? m.leave.2 ≠ some (.error f) ∧
          m.leaveOnClose.1.session.slots.outcome? m.leaveOnClose.2 ≠ some (.error f))) ∧
      ∀ y ∈ (u.record true as).past,
        ∃ s s', y.before.state? = some s ∧ y.after.state? = some s' ∧ s.Passes s' := by
  refine ⟨fun k hk => ?_, fun y hy => (u.lived_record true as).passes u.sound hy⟩
  obtain ⟨x, hx⟩ := ((u.lived_record true as).of_mem_points hk).sound u.sound
  have hadmitted : Membership.Admitted ⟨x, k.present.session⟩ :=
    Membership.admitted (m := ⟨x, k.present.session⟩) hx.coherent
  refine ⟨x, hx.member, hadmitted, fun hd f => ?_⟩
  -- The slot of a leave that goes on is pending as long as nobody else completes it.
  obtain ⟨i, hs⟩ := exists_spared as
  have hguarded := ((u.orderly hd hs).of_mem_points hk).guarded
  have hpending {l : SlotId} (hl : x.leaveSlot = some l)
      (hf : k.present.session.slots.outcome? l = some (.error f)) : False := by
    have hp := (hguarded.leave l ((Processor.leaveSlot?_eq hx.member).trans hl)).1
    cases (Slots.isPending_iff.1 hp).2.symm.trans hf
  refine ⟨fun hf => ?_, fun hf => ?_⟩
  · obtain ⟨hl, hf⟩ := hadmitted.leave f hf
    exact hpending hl hf
  · obtain ⟨hl, hf⟩ := hadmitted.leaveOnClose f hf
    exact hpending hl hf

/-- The consumer has joined without a subscription, and the group gives it a partition. -/
def unservedAssignment : List Action :=
  unservedSteps ++ [.process (.poll 0 2)] ++
    hears (.success "m" 1 (some (.ofList [{ topic := "t", number := 0 }])))

/-- A subscription that takes no partitions from the group is the one fault there is, and a request to
leave does not fail then. -/
theorem transitions_admitted_unserved :
    let k := heartbeatSetup.record true unservedAssignment
    ∃ x, k.present.member = some x ∧
      let m : Membership := ⟨x, k.present.session⟩
      (∃ e, m.reconcile false 0 = .error e ∧ e.Unserved) ∧
        ∀ f, m.leave.1.session.slots.outcome? m.leave.2 ≠ some (.error f) := by
  intro k
  have hd : (heartbeatSetup.begin true).discreet unservedAssignment = true := by decide +kernel
  have hstops : k.present.member.any (fun x =>
      (Membership.reconcile ⟨x, k.present.session⟩ false 0).fault?.isSome) = true := by
    decide +kernel
  obtain ⟨hadmitted, -⟩ := transitions_admitted heartbeatSetup unservedAssignment
  obtain ⟨x, hx, hm, hleave⟩ := hadmitted k k.mem_points_self
  refine ⟨x, hx, ?_, fun f => (hleave hd f).1⟩
  rw [hx, Option.any_some] at hstops
  cases hr : Membership.reconcile ⟨x, k.present.session⟩ false 0 with
  | ok m =>
    rw [hr] at hstops
    cases hstops
  | error e => exact ⟨e, rfl, hm.reconcile false 0 e hr⟩

end Setup

end GroupConsumer
