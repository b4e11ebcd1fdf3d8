import GroupConsumer.Proofs.Run.Chronicle

/-!
# Consumers without a group

A consumer that has no group has no member, and nothing that happens gives it one
(`member_undergo_of_none`). Its actions have the same causes as those of other consumers, and these
lead where the actions lead. `Setup.begin` starts a consumer of either kind; what is said of all
processors that are `Steady` holds of both.
-/

namespace GroupConsumer

/-- Whether the event may bring a subscription that the group serves. -/
def AppEvent.isSubscription : AppEvent → Bool
  | .subscribeTopics .. | .subscribePattern .. | .refreshPattern _ => true
  | _ => false

namespace Processor

variable {p : Processor} {c : Cause} {e : AppEvent}

/-- What is received leaves the member alone, unless it brings a subscription or makes the member
leave. -/
theorem member_receive (hc : Cause.trigger? p (.received e) = none) (he : e.isSubscription = false) :
    (p.receive e).member = p.member := by
  cases e with
  | resetOffset t parts strategy =>
    exact (serves_completeWith (fun _ hs => Subscription.alike_requestReset hs) t).member
  | subscribeTopics | subscribePattern | refreshPattern => cases he
  | unsubscribe | leaveOnClose => cases hc
  | assign t time parts =>
    refine Eq.trans ?_ (handles_updateCommitTimer p [] time).member
    show (completeWith _ t _).member = _
    unfold completeWith
    split <;> rfl
  | seek t tp offset epoch =>
    exact (serves_completeWith (fun _ hs => Subscription.alike_seek hs) t).member
  | _ => exact (handles_receive p rfl).member

/-! ### No member -/

theorem membership?_of_none (hm : p.member = none) : p.membership? = none := by
  rw [membership?, hm]
  rfl

theorem onMember_of_none (hm : p.member = none) (f : Membership → Step) :
    p.onMember f = (p, []) := by
  rw [onMember, membership?_of_none hm]

theorem reconciles_of_none (hm : p.member = none) (now : Int64) : p.reconciles now = [] := by
  rw [reconciles, advances, membership?_of_none hm]

/-- Without a group the subscription is dropped at once. -/
theorem unsubscribe_of_none (hm : p.member = none) (t : Ticket) :
    p.unsubscribe t =
      (({ p with evaluated := none } : Processor).withSubscription (·.unsubscribe)).succeed t := by
  have hl : ({ p with evaluated := none } : Processor).leave t (·.leave) = none := by
    rw [leave, membership?, hm]
    rfl
  rw [unsubscribe, hl]
  rfl

theorem leaveOnClose_of_none (hm : p.member = none) (t : Ticket) :
    p.leaveOnClose t = p.succeed t := by
  rw [leaveOnClose, leave, membership?_of_none hm]
  rfl

/-- Nothing that is received brings a member. -/
theorem member_receive_of_none (hm : p.member = none) (e : AppEvent) :
    (p.receive e).member = none := by
  cases e with
  | subscribeTopics t topics =>
    show (p.subscribeTopics t topics).member = none
    rw [subscribeTopics, if_pos (by simp [hm])]
    exact hm
  | subscribePattern t source =>
    show (p.subscribePattern t source).member = none
    rw [subscribePattern, if_pos (by simp [hm])]
    exact hm
  | refreshPattern t =>
    have he := (serves_evaluatePattern p).member.trans hm
    show (p.refreshPattern t).member = none
    unfold refreshPattern
    split
    · simp only
      split
      · show Option.map _ p.evaluatePattern.1.member = none
        rw [he]
        rfl
      · exact he
    · exact hm
  | unsubscribe t =>
    show (p.unsubscribe t).member = none
    rw [unsubscribe_of_none hm]
    exact hm
  | leaveOnClose t =>
    show (p.leaveOnClose t).member = none
    rw [leaveOnClose_of_none hm]
    exact hm
  | _ => exact (member_receive rfl rfl).trans hm

theorem member_undergo_of_none (hm : p.member = none) (c : Cause) :
    (p.undergo c).member = none := by
  cases c with
  | received e => exact member_receive_of_none hm e
  | outside | lookups | reported => exact hm
  | polled | heard | advanced =>
    rw [undergo, onMember_of_none hm]
    exact hm
  | pollDone time gate => exact (serves_updateCommitTimer p time).member.trans hm
  | deferred update => exact (serves_applyDeferred p update).member.trans hm
  | drained => exact (serves_drainOutcomes p).member.trans hm
  | told => exact (publishSnapshot_eq p).1.trans hm

theorem member_follow_of_none (hm : p.member = none) (cs : List Cause) :
    (p.follow cs).member = none := by
  induction cs generalizing p with
  | nil => exact hm
  | cons c cs ih => exact ih (member_undergo_of_none hm c)

theorem follow_pollCauses_of_none (hm : p.member = none) (time : Int64) (gate : SlotId) :
    p.follow (p.pollCauses time gate) = p.poll time gate := by
  let q := p.receive (.poll time gate)
  have hq : q.member = none := member_receive_of_none hm _
  have ho (f : Membership → Step) : q.onMember f = (q, []) := onMember_of_none hq f
  have hr (q : Processor) (hq : q.member = none) : q.reconcile time = (q, []) :=
    onMember_of_none hq _
  have hc : p.pollCauses time gate =
      [.received (.poll time gate), .polled, .pollDone time gate, .reported []] := by
    show [.received (.poll time gate), .polled] ++ (q.onMember (·.onPoll)).1.reconciles time ++
      [.pollDone time gate, .reported ((q.onMember (·.onPoll)).2 ++
        ((q.onMember (·.onPoll)).1.reconcile time).2)] = _
    rw [ho, reconciles_of_none hq, hr q hq]
    rfl
  have hp : p.poll time gate =
      ((q.updateCommitTimer time).withSession (·.completeUnit gate (.ok ()))).report [] := by
    show ((((q.onMember (·.onPoll)).1.reconcile time).1.updateCommitTimer time).withSession
      (·.completeUnit gate (.ok ()))).report ((q.onMember (·.onPoll)).2 ++
        ((q.onMember (·.onPoll)).1.reconcile time).2) = _
    rw [ho, hr q hq]
    rfl
  rw [hc, hp]
  show ((q.onMember (·.onPoll)).1.undergo (.pollDone time gate)).undergo (.reported []) = _
  rw [ho]
  rfl

theorem follow_callbackCauses_of_none (hm : p.member = none) (method : ListenerMethod)
    (slot : SlotId) (fault : Option Fault) :
    p.follow (p.callbackCauses (.callbackDone method slot fault)) = p.callbackDone slot fault := by
  rw [callbackCauses, if_pos (by simp [hm])]
  show p.receive (.callbackDone method slot fault) = _
  rw [receive, callbackDone, membership?_of_none hm]

theorem applyHeartbeats_of_none (hm : p.member = none) (os : List HeartbeatOutcome) :
    p.applyHeartbeats os = (p, []) := by
  induction os with
  | nil => rfl
  | cons o os ih =>
    rw [applyHeartbeats, onMember_of_none hm]
    simp only [ih]
    rfl

/-- Without a group, a round of background progress is over when what lookups have left has been applied
and the outcomes of heartbeats have been taken. -/
theorem progress_of_none (hm : p.member = none) (now : Int64) :
    p.progress now = (p.follow (.lookups :: p.session.deferred.map .deferred)).drainOutcomes.1 := by
  let q := p.follow (.lookups :: p.session.deferred.map .deferred)
  let r := q.drainOutcomes.1
  have hq : q = p.session.deferred.foldl applyDeferred
      { p with session := p.session.takeDeferred.1 } := follow_deferred _ _
  have hr : r.member = none :=
    (serves_drainOutcomes q).member.trans (member_follow_of_none hm _)
  have hp : p.progress now =
      ((r.applyHeartbeats q.drainOutcomes.2).1.reconcile now).1.publishSnapshot.report
        ((r.applyHeartbeats q.drainOutcomes.2).2 ++
          ((r.applyHeartbeats q.drainOutcomes.2).1.reconcile now).2) := by
    show _ = ((q.drainOutcomes.1.applyHeartbeats q.drainOutcomes.2).1.reconcile
      now).1.publishSnapshot.report ((q.drainOutcomes.1.applyHeartbeats q.drainOutcomes.2).2 ++
        ((q.drainOutcomes.1.applyHeartbeats q.drainOutcomes.2).1.reconcile now).2)
    rw [hq]
    rfl
  rw [hp, applyHeartbeats_of_none hr, reconcile, onMember_of_none hr]
  show r.publishSnapshot.report [] = r
  rw [publishSnapshot, membership?_of_none hr]
  rfl

theorem follow_progressCauses_of_none (hm : p.member = none) (now : Int64) :
    p.follow (p.progressCauses now) = p.progress now := by
  let updates := p.session.deferred.map Cause.deferred
  let q := p.follow (.lookups :: updates)
  let r := q.drainOutcomes.1
  let os := q.drainOutcomes.2
  have hr : r.member = none :=
    (serves_drainOutcomes q).member.trans (member_follow_of_none hm _)
  have hheard : r.follow (os.map Cause.heard) = r := by
    rw [follow_heard, applyHeartbeats_of_none hr]
  have hc : p.progressCauses now =
      .lookups :: (updates ++ .drained :: (os.map .heard ++ [.told, .reported []])) := by
    show Cause.lookups :: (updates ++ .drained :: (os.map Cause.heard ++
      ((r.applyHeartbeats os).1.reconciles now ++ [.told,
        .reported ((r.applyHeartbeats os).2 ++ ((r.applyHeartbeats os).1.reconcile now).2)]))) = _
    rw [applyHeartbeats_of_none hr, reconciles_of_none hr, reconcile, onMember_of_none hr]
    rfl
  rw [hc, progress_of_none hm, follow_cons, follow_append, follow_cons, follow_append]
  show (r.follow (os.map .heard)).publishSnapshot.report [] = r
  rw [hheard, publishSnapshot, membership?_of_none hr]
  rfl

/-- The causes of an action lead where the action leads, also without a group. -/
theorem follow_causes_of_none (hm : p.member = none) (a : Action) :
    p.follow (p.causes a) = p.act a := by
  cases a with
  | outside o => rfl
  | progress now => exact follow_progressCauses_of_none hm now
  | process e =>
    cases e with
    | poll time gate => exact follow_pollCauses_of_none hm time gate
    | callbackDone method slot fault => exact follow_callbackCauses_of_none hm method slot fault
    | _ => rfl

/-! ### Consumers of either kind -/

/-- The member, if there is one, is coherent and agrees with the subscription. -/
def Steady (p : Processor) : Prop := ∀ x, p.member = some x → p.Sound x

theorem Sound.steady {x : Member} (h : p.Sound x) : p.Steady := by
  intro y hy
  obtain rfl : x = y := Option.some.inj (h.member.symm.trans hy)
  exact h

theorem Steady.undergo (h : p.Steady) (c : Cause) : (p.undergo c).Steady := by
  cases hm : p.member with
  | none =>
    intro y hy
    cases (member_undergo_of_none hm c).symm.trans hy
  | some x =>
    obtain ⟨y, hy⟩ := (h x hm).undergo c
    exact hy.steady

theorem Steady.follow_causes (h : p.Steady) (a : Action) : p.follow (p.causes a) = p.act a := by
  cases hm : p.member with
  | none => exact follow_causes_of_none hm a
  | some x => exact (h x hm).follow_causes a

end Processor

namespace Chronicle

variable {p : Processor} {k : Chronicle}

theorem Lived.steady (h : Lived p k) (hp : p.Steady) : k.present.Steady := by
  induction h with
  | start => exact hp
  | undergo _ c ih => exact ih.undergo c

/-- An action is taken down just as it happens. -/
theorem present_act (hk : k.present.Steady) (a : Action) :
    (k.act a).present = k.present.act a := by
  rw [act, present_follow, hk.follow_causes]

end Chronicle

namespace Setup

/-- A new consumer, in a group or not. -/
def begin (u : Setup) (inGroup : Bool) : Processor :=
  { u.processor with member := if inGroup then some u.member else none }

/-- The chronicle of a run of a consumer that may have no group. -/
def record (u : Setup) (inGroup : Bool) (as : List Action) : Chronicle :=
  Chronicle.run { present := u.begin inGroup } as

theorem steady (u : Setup) (inGroup : Bool) : (u.begin inGroup).Steady := by
  cases inGroup with
  | false =>
    intro x hx
    have hm : (u.begin false).member = none := rfl
    rw [hm] at hx
    cases hx
  | true => exact u.sound.steady

variable (u : Setup) (inGroup : Bool) (as : List Action)

theorem lived_record : Chronicle.Lived (u.begin inGroup) (u.record inGroup as) :=
  Chronicle.Lived.start.run as

/-- The present of a run is what its actions make of the processor. -/
theorem present_record : (u.record inGroup as).present = as.foldl Processor.act (u.begin inGroup) := by
  suffices h : ∀ k : Chronicle, k.present.Steady →
      (k.run as).present = as.foldl Processor.act k.present from h _ (u.steady inGroup)
  induction as with
  | nil => exact fun _ _ => rfl
  | cons a as ih =>
    intro k hk
    have hs : (k.act a).present.Steady :=
      Chronicle.follow_induction (I := fun k => k.present.Steady) (fun _ c h => h.undergo c) hk _
    have := ih (k.act a) hs
    rw [Chronicle.present_act hk] at this
    exact this

end Setup

end GroupConsumer
