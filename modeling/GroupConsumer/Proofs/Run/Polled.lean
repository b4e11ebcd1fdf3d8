import GroupConsumer.Proofs.Run.Secluded

/-!
# Polls that are processed to their end

Of a poll the member hears first, then reconciliation goes on, and then the commit manager sees what
was consumed. The gate is opened next, whatever faults reconciliation has stopped with; these are
published last. A gate that nobody else makes use of is pending until then (`Tidy.polled`).
-/

namespace GroupConsumer

namespace Processor

/-- A poll as far as its commits: the heartbeat manager sees it, the member hears of it and goes on
with reconciliation. Also given are the faults that this stopped with. -/
def upToCommit (p : Processor) (time : Int64) (gate : SlotId) : Processor × List Fault :=
  let (q, fs) := (p.receive (.poll time gate)).onMember (·.onPoll)
  let (q, gs) := q.reconcile time
  (q, fs ++ gs)

/-- The calls by which the commit manager, if there is one, sees the time of a poll and what was
consumed. -/
def commitCalls (p : Processor) (time : Int64) : List Call :=
  if p.has .commit then [.updateCommitTimer time p.subscription.consumed] else []

/-- A poll that found `p` has been processed to its end: reconciliation was attempted, then the commit
manager had its call, whatever faults reconciliation had stopped with, and the gate is open. -/
structure Polled (p : Processor) (time : Int64) (gate : SlotId) (q : Processor) : Prop where
  member : q.member = (p.upToCommit time gate).1.member
  session : (p.upToCommit time gate).1.session.Grows q.session
    ((p.upToCommit time gate).2.map .fault) ((p.upToCommit time gate).1.commitCalls time)
  gate : q.session.slots.outcome? gate = some (.ok .done)

variable {p q : Processor} {gate : SlotId}

theorem grows_updateCommitTimer (p : Processor) (time : Int64) :
    p.session.Grows (p.updateCommitTimer time).session [] (p.commitCalls time) := by
  unfold updateCommitTimer commitCalls
  split
  · exact Session.grows_record _ _
  · exact .refl _

/-- A poll opens its gate if nobody else has completed it. -/
theorem Tidy.outcome?_poll (hp : p.Tidy) (hs : p.Secludes gate)
    (ho : p.session.slots.outcome? gate = none) (time : Int64) :
    (p.process (.poll time gate)).session.slots.outcome? gate = some (.ok .done) := by
  let e : AppEvent := .poll time gate
  let r := p.receive e
  have hreceive : p.Confined [] r := by
    have hr : ∃ s, r = p.withSession (fun _ => s) ∧ s.subscription = p.session.subscription ∧
        s.slots = p.session.slots ∧ s.futures = p.session.futures := by
      show ∃ s, (if p.has .heartbeat then p.withSession (·.record (.resetPollTimer time)) else p) =
        _ ∧ _
      split
      · exact ⟨_, rfl, rfl, rfl, rfl⟩
      · exact ⟨p.session, rfl, rfl, rfl, rfl⟩
    obtain ⟨s, he, hsub, hslots, hfutures⟩ := hr
    rw [he]
    exact hp.confined_of_slots rfl hsub hslots hfutures
  let cs := Cause.polled :: ((r.onMember (·.onPoll)).1.reconciles time)
  have hmember : r.Confined [] (r.follow cs) := by
    refine hreceive.tidy.follow (fun c hc => ?_) fun j hj => absurd hj List.not_mem_nil
    obtain rfl | hc := List.mem_cons.1 hc
    · exact fun j => id
    · rw [eq_advanced_of_mem_advances hc]
      exact fun j => id
  have hpoll : p.process e = ((r.follow cs).undergo (.pollDone time gate)).undergo
      (.reported (p.upToCommit time gate).2) := by
    refine (hp.steady.follow_causes (.process e)).symm.trans ?_
    show p.follow (p.pollCauses time gate) = _
    rw [pollCauses]
    simp only [follow_append]
    rfl
  obtain ⟨hsecluded, hpending⟩ := (hreceive.trans hmember).secludes gate List.not_mem_nil hs
  rw [hpoll]
  generalize r.follow cs = k at hsecluded hpending
  have hslots : (k.updateCommitTimer time).session.slots = k.session.slots := by
    unfold updateCommitTimer
    split <;> rfl
  show (((k.updateCommitTimer time).session.completeUnit gate (.ok ())).report _).slots.outcome?
    gate = _
  rw [Session.slots_report]
  refine Slots.outcome?_settle_self ?_ _
  rw [hslots, Slots.isPending_iff]
  exact ⟨hsecluded.slot, hpending.trans ho⟩

/-- A poll is processed to its end, if nobody else has completed its gate. -/
theorem Tidy.polled (hp : p.Tidy) (hs : p.Secludes gate)
    (ho : p.session.slots.outcome? gate = none) (time : Int64) :
    p.Polled time gate (p.process (.poll time gate)) where
  member := by
    show ((p.upToCommit time gate).1.updateCommitTimer time).member = _
    exact (handles_updateCommitTimer _ [] time).member
  session := by
    have hcommit := grows_updateCommitTimer (p.upToCommit time gate).1 time
    have hgate := hcommit.trans (Session.grows_completeUnit _ gate (.ok ()))
    have hall := hgate.trans (Session.grows_report _ (p.upToCommit time gate).2)
    simp only [List.nil_append, List.append_nil] at hall
    exact hall
  gate := hp.outcome?_poll hs ho time

end Processor

end GroupConsumer
