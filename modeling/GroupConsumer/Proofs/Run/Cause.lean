import GroupConsumer.Proofs.Member.Move
import GroupConsumer.Proofs.Processor.Handles

/-!
# What happens in a run

A run of the processor is a row of `Action`s: the processor applies an event or makes background
progress, or something happens outside of it. An action is made of smaller parts, its `Cause`s, each
of which concerns the member at most once. `Processor.causes` takes an action apart.
-/

namespace GroupConsumer

/-- What can happen outside the processor while it is at rest. -/
inductive Outside where
  /-- Somebody makes a slot. -/
  | fresh
  /-- Somebody completes a slot. -/
  | settle (slot : SlotId) (outcome : Outcome Value)
  /-- Somebody hooks onto a slot. -/
  | listen (slot : SlotId) (listener : Listener Value Deferral)
  /-- The caller takes what was published. -/
  | drain
  /-- Time passes. -/
  | clock (ms : Int64)
  /-- The collaborators change what they will do. Which of them exist and what they have been told
  stays. -/
  | script (script : Script)

/-- What a run is made of. -/
inductive Action where
  | process (e : AppEvent)
  | progress (now : Int64)
  | outside (o : Outside)

/-- The parts that actions are made of. -/
inductive Cause where
  | outside (o : Outside)
  /-- An event is applied. Of a poll and of the end of a callback this is only the first part. -/
  | received (e : AppEvent)
  /-- The member hears of a poll. -/
  | polled
  /-- The member hears what came of a heartbeat. -/
  | heard (outcome : HeartbeatOutcome)
  /-- The member takes one step of reconciliation. -/
  | advanced (now : Int64)
  /-- A poll ends. -/
  | pollDone (time : Int64) (gate : SlotId)
  /-- The values that lookups have left are taken. -/
  | lookups
  /-- One of these values is applied. -/
  | deferred (update : Deferral × Value)
  /-- The outcomes of heartbeats are taken. -/
  | drained
  /-- The heartbeat manager is told where the member stands. -/
  | told
  /-- Faults are published. -/
  | reported (faults : List Fault)

/-- Whether the cause is a part of background progress, and of no other action. -/
def Cause.isProgress : Cause → Bool
  | .lookups | .deferred _ | .drained | .heard _ | .told => true
  | .outside _ | .received _ | .polled | .advanced _ | .pollDone .. | .reported _ => false

/-- The outcome that a member hears of. -/
def Cause.heard? : Cause → Option HeartbeatOutcome
  | .heard o => some o
  | _ => none

theorem Cause.eq_heard_of_heard? {c : Cause} {o : HeartbeatOutcome} (h : c.heard? = some o) :
    c = .heard o := by
  unfold heard? at h
  split at h
  · cases h
    rfl
  · cases h

/-- The session after something has happened outside. -/
def Session.undergo (s : Session) : Outside → Session
  | .fresh => s.fresh.1
  | .settle i o => s.complete i o
  | .listen i l => { s with slots := s.slots.listen i l }
  | .drain => s.drainBackground.1
  | .clock ms => s.advance ms
  | .script x =>
    { s with script := { x with
        managers := s.script.managers, lastSnapshot := s.script.lastSnapshot } }

namespace AppEvent

/-- The slots that an event names. -/
def names : AppEvent → List SlotId
  | .poll _ gate => [gate]
  | .callbackDone _ slot _ | .tasksCallbackDone _ slot _ => [slot]
  | e => (e.ticket?.map (·.slot)).toList

/-- An event names the slot of its ticket. -/
theorem slot_mem_names {e : AppEvent} {t : Ticket} (h : e.ticket? = some t) : t.slot ∈ e.names := by
  have hn : t.slot ∈ (e.ticket?.map (·.slot)).toList := by
    rw [h]
    exact List.mem_singleton_self _
  cases e with
  | poll | callbackDone | tasksCallbackDone => cases h
  | _ => exact hn

/-- Whether the event asks the member to leave. -/
def isLeave : AppEvent → Bool
  | .unsubscribe _ | .leaveOnClose _ => true
  | _ => false

/-- The lookups whose answers an event keeps for a later round. -/
def deferrals : AppEvent → List Deferral
  | .checkPositions t => [.committed t, .positions t]
  | .currentLag _ _ isolation => [.endOffsets isolation]
  | _ => []

/-- Whether the event neither concerns the member, as far as its first part goes, nor changes the
subscription. -/
def isErrand : AppEvent → Bool
  | .resetOffset .. | .subscribeTopics .. | .subscribePattern .. | .refreshPattern _ | .unsubscribe _
  | .assign .. | .seek .. | .leaveOnClose _ => false
  | _ => true

end AppEvent

namespace Processor

/-- The processor after an action. -/
def act (p : Processor) : Action → Processor
  | .process e => p.process e
  | .progress now => p.progress now
  | .outside o => p.withSession (·.undergo o)

/-- The first part of an event: of a poll that the heartbeat manager sees it, of the end of a
callback that its slot is completed, and of any other event all there is. -/
def receive (p : Processor) : AppEvent → Processor
  | .poll time _ => if p.has .heartbeat then p.withSession (·.record (.resetPollTimer time)) else p
  | .callbackDone _ slot fault =>
    match p.membership? with
    | none => p
    | some m => p.withMembership (m.onCallbackDone slot fault)
  | e => p.process e

theorem receive_callbackDone {p : Processor} {m : Membership} (hm : p.membership? = some m)
    (method : ListenerMethod) (slot : SlotId) (fault : Option Fault) :
    p.receive (.callbackDone method slot fault) =
      p.withMembership (m.onCallbackDone slot fault) := by
  simp only [receive, hm]

/-- An event that neither concerns the member nor changes the subscription is only handled, by work on
the slot that it names. -/
theorem handles_receive (p : Processor) {e : AppEvent} (he : e.isErrand = true) :
    Handles e.names e.deferrals p (p.receive e) := by
  cases e with
  | poll time gate =>
    show Handles [gate] [] p (if _ then _ else _)
    split
    · exact .recorded .rest _
    · exact .rest
  | commitAsync t offsets => exact handles_commitAsync p t offsets
  | commitSync t offsets => exact handles_commitSync p t offsets
  | commitOnClose => exact handles_signalManager p [] .commit
  | fetchCommitted t parts => exact handles_fetchCommitted p t parts
  | listOffsets t times b => exact handles_listOffsets p t times b
  | checkPositions t => exact handles_checkPositions p t
  | currentLag t tp isolation => exact handles_currentLag p t tp isolation
  | createFetches t => exact handles_createFetches p t
  | stopCoordinatorOnClose => exact handles_signalManager p [] .coordinator
  | callbackDone method slot fault =>
    clear he
    cases hm : p.member with
    | none =>
      have hr : p.receive (.callbackDone method slot fault) = p := by
        simp only [receive, membership?, hm, Option.map_none]
      rw [hr]
      exact .rest
    | some x =>
      have hp : p.membership? = some ⟨x, p.session⟩ := by
        rw [membership?, hm]
        rfl
      have hr : ∃ r, p.receive (.callbackDone method slot fault) =
          p.withSession (·.completeUnit slot r) := by
        constructor
        rw [receive_callbackDone hp, withSession, withMembership, hm]
        rfl
      obtain ⟨r, hr⟩ := hr
      rw [hr]
      exact .completed .rest List.mem_cons_self _
  | tasksCallbackDone c slot fault => exact handles_tasksCallbackDone p c slot fault
  | resetOffset | subscribeTopics | subscribePattern | refreshPattern | unsubscribe | assign | seek
    | leaveOnClose => cases he

/-- The processor after one part of an action. -/
def undergo (p : Processor) : Cause → Processor
  | .outside o => p.withSession (·.undergo o)
  | .received e => p.receive e
  | .polled => (p.onMember (·.onPoll)).1
  | .heard o => (p.onMember (·.onHeartbeat o)).1
  | .advanced now => (p.onMember (·.advanceOnce (p.has .commit) now)).1
  | .pollDone time gate => (p.updateCommitTimer time).withSession (·.completeUnit gate (.ok ()))
  | .lookups => { p with session := p.session.takeDeferred.1 }
  | .deferred update => p.applyDeferred update
  | .drained => p.drainOutcomes.1
  | .told => p.publishSnapshot
  | .reported fs => p.report fs

/-- The processor after a row of parts. -/
def follow (p : Processor) (xs : List Cause) : Processor := xs.foldl undergo p

@[simp] theorem follow_nil (p : Processor) : p.follow [] = p := rfl

@[simp] theorem follow_cons (p : Processor) (x : Cause) (xs : List Cause) :
    p.follow (x :: xs) = (p.undergo x).follow xs := rfl

@[simp] theorem follow_append (p : Processor) (xs ys : List Cause) :
    p.follow (xs ++ ys) = (p.follow xs).follow ys := List.foldl_append

/-- The steps of reconciliation that are taken before it has to wait, at most `n`. -/
def advances (now : Int64) : Nat → Processor → List Cause
  | 0, _ => []
  | n + 1, p =>
    match p.membership? with
    | none => []
    | some m =>
      match m.advance (p.has .commit) now with
      | .ok (m, true) => .advanced now :: advances now n (p.withMembership m)
      | _ => [.advanced now]

/-- The steps of reconciliation. -/
def reconciles (p : Processor) (now : Int64) : List Cause := advances now 4 p

theorem eq_advanced_of_mem_advances {now : Int64} {n : Nat} {p : Processor} {c : Cause}
    (h : c ∈ advances now n p) : c = .advanced now := by
  induction n generalizing p with
  | zero => cases h
  | succ n ih =>
    unfold advances at h
    split at h
    · cases h
    · split at h
      · obtain rfl | h := List.mem_cons.1 h
        · rfl
        · exact ih h
      · exact List.mem_singleton.1 h

/-- The parts of a poll. -/
def pollCauses (p : Processor) (time : Int64) (gate : SlotId) : List Cause :=
  let e : AppEvent := .poll time gate
  let (q, fs) := (p.receive e).onMember (·.onPoll)
  [.received e, .polled] ++ q.reconciles time ++
    [.pollDone time gate, .reported (fs ++ (q.reconcile time).2)]

/-- The parts of the end of a callback. -/
def callbackCauses (p : Processor) (e : AppEvent) : List Cause :=
  let q := p.receive e
  if p.member.isNone then [.received e]
  else .received e :: (q.reconciles q.session.clock ++
    [.reported (q.reconcile q.session.clock).2])

/-- The parts of background progress. -/
def progressCauses (p : Processor) (now : Int64) : List Cause :=
  let updates := p.session.deferred.map Cause.deferred
  let (q, os) := (p.follow (.lookups :: updates)).drainOutcomes
  let (q, fs) := q.applyHeartbeats os
  .lookups :: (updates ++ .drained :: (os.map Cause.heard ++ (q.reconciles now ++
    [.told, .reported (fs ++ (q.reconcile now).2)])))

/-- The parts of an action, in order. -/
def causes (p : Processor) : Action → List Cause
  | .process (.poll time gate) => p.pollCauses time gate
  | .process (.callbackDone method slot fault) => p.callbackCauses (.callbackDone method slot fault)
  | .process e => [.received e]
  | .progress now => p.progressCauses now
  | .outside o => [.outside o]

/-- What can be among the parts of a poll. -/
theorem mem_pollCauses {p : Processor} {time : Int64} {gate : SlotId} {c : Cause}
    (h : c ∈ p.pollCauses time gate) :
    c = .received (.poll time gate) ∨ c = .polled ∨ c = .advanced time ∨ c = .pollDone time gate ∨
      ∃ fs, c = .reported fs := by
  simp only [pollCauses, reconciles, List.mem_append, List.mem_cons, List.not_mem_nil,
    or_false] at h
  obtain ((rfl | rfl) | h) | rfl | rfl := h
  · simp
  · simp
  · simp [eq_advanced_of_mem_advances h]
  · simp
  · simp

/-- What can be among the parts of the end of a callback. -/
theorem mem_callbackCauses {p : Processor} {e : AppEvent} {c : Cause}
    (h : c ∈ p.callbackCauses e) :
    c = .received e ∨ (∃ now, c = .advanced now) ∨ ∃ fs, c = .reported fs := by
  simp only [callbackCauses, reconciles] at h
  split at h
  · exact Or.inl (List.mem_singleton.1 h)
  · simp only [List.mem_append, List.mem_cons, List.not_mem_nil, or_false] at h
    obtain rfl | h | rfl := h
    · simp
    · simp [eq_advanced_of_mem_advances h]
    · simp

/-- What can be among the parts of background progress. -/
theorem mem_progressCauses {p : Processor} {now : Int64} {c : Cause}
    (h : c ∈ p.progressCauses now) :
    c = .lookups ∨ (∃ u, c = .deferred u) ∨ c = .drained ∨ (∃ o, c = .heard o) ∨
      c = .advanced now ∨ c = .told ∨ ∃ fs, c = .reported fs := by
  simp only [progressCauses, reconciles, List.mem_cons, List.mem_append, List.mem_map,
    List.not_mem_nil, or_false] at h
  obtain rfl | ⟨u, -, rfl⟩ | rfl | ⟨o, -, rfl⟩ | h | rfl | rfl := h
  · simp
  · simp
  · simp
  · simp
  · simp [eq_advanced_of_mem_advances h]
  · simp
  · simp

/-- Background progress takes what lookups have left at its very beginning. -/
theorem progressCauses_eq_cons (p : Processor) (now : Int64) :
    ∃ cs, p.progressCauses now = .lookups :: (p.session.deferred.map .deferred ++ cs) ∧
      ∀ c ∈ p.session.deferred.map Cause.deferred ++ cs, c ≠ .lookups := by
  refine ⟨_, rfl, fun c hc => ?_⟩
  rintro rfl
  simp only [reconciles, List.mem_append, List.mem_map, List.mem_cons, reduceCtorEq, and_false,
    exists_false, List.not_mem_nil, or_false, false_or] at hc
  cases eq_advanced_of_mem_advances hc

/-- What background progress applies had been left by lookups when it began. -/
theorem mem_deferred_of_mem_progressCauses {p : Processor} {now : Int64} {u : Deferral × Value}
    (h : Cause.deferred u ∈ p.progressCauses now) : u ∈ p.session.deferred := by
  simp only [progressCauses, reconciles, List.mem_cons, List.mem_append, List.mem_map,
    List.not_mem_nil, or_false, reduceCtorEq, false_or, Cause.deferred.injEq, exists_eq_right,
    and_false, exists_false] at h
  obtain h | h := h
  · exact h
  · cases eq_advanced_of_mem_advances h

/-- What is part of background progress alone is part of no other action. -/
theorem isProgress_of_mem_causes {p : Processor} {a : Action} (ha : ∀ now, a ≠ .progress now)
    {c : Cause} (h : c ∈ p.causes a) : c.isProgress = false := by
  cases a with
  | progress now => exact absurd rfl (ha now)
  | outside o =>
    rw [List.mem_singleton.1 h]
    rfl
  | process e =>
    cases e with
    | poll time gate => obtain rfl | rfl | rfl | rfl | ⟨fs, rfl⟩ := mem_pollCauses h <;> rfl
    | callbackDone method slot fault =>
      obtain rfl | ⟨now, rfl⟩ | ⟨fs, rfl⟩ := mem_callbackCauses h <;> rfl
    | _ =>
      rw [List.mem_singleton.1 h]
      rfl

/-- An event is applied without the outcomes of heartbeats. -/
theorem ne_heard_of_mem_process {p : Processor} {e : AppEvent} {c : Cause}
    (h : c ∈ p.causes (.process e)) (o : HeartbeatOutcome) : c ≠ .heard o := by
  rintro rfl
  cases isProgress_of_mem_causes (fun now he => by cases he) h

end Processor

end GroupConsumer
