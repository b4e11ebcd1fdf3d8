import GroupConsumer.Proofs.Member.Twins
import GroupConsumer.Proofs.Processor.Handles

/-!
# Processors that are alike but for a few slots

Two processors are twins if they have the same member and their sessions are twins. Every event is
applied to both alike. An event that hooks a listener onto the answer of a collaborator is, as long as
that answer is not one of the slots in which the two differ (`Unasked`), or does not lead out of them.
-/

namespace GroupConsumer

/-- Whether an answer to the call yields nothing but that the call is over. -/
def Method.isBare : Method → Bool
  | commitBeforeRevocation | createFetches => true
  | commitAsync | commitSync | fetchCommitted | lookUpOffsets | resolveResets => false

namespace Processor

variable {D : SlotId → Prop} {p q : Processor} {t : Ticket}

/-- The members are the same, and the sessions are twins. -/
structure Twins (D : SlotId → Prop) (p q : Processor) : Prop where
  member : q.member = p.member
  evaluated : q.evaluated = p.evaluated
  session : p.session.Twins D q.session

/-- No collaborator that was asked for anything has answered with a slot in `D`. -/
def Unasked (D : SlotId → Prop) (p : Processor) : Prop :=
  ∀ f ∈ p.session.futures.toList, D f.2 → f.1.isBare = true

theorem Unasked.answer {s : Session} {m : Method} {call : Nat → Call}
    (hp : p.Unasked D) (hf : p.session.futures = (s.ask m call).1.futures)
    (hm : m.isBare = false) : ¬ D (s.ask m call).2 := by
  intro hD
  have hfile : (m, (s.ask m call).2) ∈ p.session.futures.toList :=
    hf ▸ Session.mem_futures_ask s m call
  cases hm.symm.trans (hp _ hfile hD)

namespace Twins

theorem refl (h : p.session.slots.Encloses D) : Twins D p p := ⟨rfl, rfl, .refl h⟩

theorem subscription (h : Twins D p q) : q.subscription = p.subscription := h.session.subscription

theorem has (h : Twins D p q) (m : Manager) : q.has m = p.has m := by
  rw [Processor.has, Processor.has, h.session.script]

theorem membership? (h : Twins D p q) :
    (p.membership? = none ∧ q.membership? = none) ∨
      ∃ m n, p.membership? = some m ∧ q.membership? = some n ∧ m.Twins D n := by
  unfold Processor.membership?
  rw [h.member]
  cases p.member with
  | none => exact Or.inl ⟨rfl, rfl⟩
  | some x => exact Or.inr ⟨_, _, rfl, rfl, rfl, h.session⟩

/-! ### Changes -/

theorem withSession (h : Twins D p q) {f g : Session → Session}
    (hs : (f p.session).Twins D (g q.session)) :
    Twins D (p.withSession f) (q.withSession g) := ⟨h.member, h.evaluated, hs⟩

theorem withSubscription (h : Twins D p q) (f : Subscription → Subscription) :
    Twins D (p.withSubscription f) (q.withSubscription f) :=
  h.withSession (h.session.withSubscription f)

theorem withMembership (h : Twins D p q) {m n : Membership} (hm : m.Twins D n) :
    Twins D (p.withMembership m) (q.withMembership n) :=
  ⟨congrArg some hm.member, h.evaluated, hm.session⟩

theorem withMember (h : Twins D p q) (f : Member → Member) :
    Twins D (p.withMember f) (q.withMember f) :=
  ⟨congrArg (·.map f) h.member, h.evaluated, h.session⟩

theorem withEvaluated (h : Twins D p q) (v : Option UInt64) :
    Twins D { p with evaluated := v } { q with evaluated := v } := ⟨h.member, rfl, h.session⟩

theorem record (h : Twins D p q) (c d : Call) :
    Twins D (p.withSession (·.record c)) (q.withSession (·.record d)) :=
  h.withSession (h.session.record c d)

theorem completeUnit (h : Twins D p q) (i : SlotId) (r : Except Fault Unit) :
    Twins D (p.withSession (·.completeUnit i r)) (q.withSession (·.completeUnit i r)) :=
  h.withSession (h.session.complete i _)

theorem complete (h : Twins D p q) (t : Ticket) (o : Outcome Value) :
    Twins D (p.complete t o) (q.complete t o) := h.withSession (h.session.complete t.slot o)

theorem report (h : Twins D p q) (fs gs : List Fault) : Twins D (p.report fs) (q.report gs) :=
  h.withSession (h.session.report fs gs)

theorem fail (h : Twins D p q) (t : Ticket) (f : Fault) : Twins D (p.fail t f) (q.fail t f) :=
  h.complete t _

theorem succeed (h : Twins D p q) (t : Ticket) : Twins D (p.succeed t) (q.succeed t) :=
  h.complete t _

theorem failMissing (h : Twins D p q) (t : Ticket) (c : Missing) (kind : AppEvent.Kind) :
    Twins D (p.failMissing t c kind) (q.failMissing t c kind) := h.fail t _

theorem completeWith (h : Twins D p q) (t : Ticket) (r : Except Fault Subscription) :
    Twins D (p.completeWith t r) (q.completeWith t r) := by
  cases r with
  | ok s => exact (h.withSubscription fun _ => s).succeed t
  | error f => exact h.fail t f

theorem updateCommitTimer (h : Twins D p q) (now : Int64) :
    Twins D (p.updateCommitTimer now) (q.updateCommitTimer now) := by
  unfold Processor.updateCommitTimer
  rw [h.has]
  split
  · exact h.withSession (h.session.record _ _)
  · exact h

/-- An operation of the member that comes out alike. -/
theorem onMember (h : Twins D p q) {f g : Membership → Step}
    (hf : ∀ m n, p.membership? = some m → q.membership? = some n → m.Twins D n →
      EndsAlike D (Membership.Twins D) (f m) (g n)) :
    Twins D (p.onMember f).1 (q.onMember g).1 := by
  unfold Processor.onMember
  obtain ⟨hp, hq⟩ | ⟨m, n, hp, hq, hm⟩ := h.membership?
  · rw [hp, hq]
    exact h
  · rw [hp, hq]
    exact h.withMembership (hf m n hp hq hm).membership

/-! ### Collaborators -/

/-- The ticket is linked to the answer, which may be in `D` if the ticket is. -/
theorem delegate_of_imp (h : Twins D p q) {m : Method} {call : Nat → Call}
    (hD : D (p.session.ask m call).2 → D t.slot) :
    Twins D (p.delegate t m call) (q.delegate t m call) := by
  have hlink {s u : Session} {i j : SlotId} (hs : s.Twins D u ∧ j = i) (hi : D i → D t.slot) :
      Twins D { p with session := s.chain i t.slot } { q with session := u.chain j t.slot } := by
    rw [hs.2]
    exact ⟨h.member, h.evaluated, hs.1.chain hi⟩
  exact hlink (h.session.ask m call) hD

theorem delegate (h : Twins D p q) {m : Method} {call : Nat → Call}
    (hm : m.isBare = false) (hu : (p.delegate t m call).Unasked D) :
    Twins D (p.delegate t m call) (q.delegate t m call) :=
  h.delegate_of_imp fun hD => absurd hD (hu.answer rfl hm)

theorem askFor (h : Twins D p q) {d : Deferral} {target : Option SlotId} {m : Method}
    {call : Nat → Call} (hm : m.isBare = false)
    (hu : (p.askFor d target m call).Unasked D) :
    Twins D (p.askFor d target m call) (q.askFor d target m call) := by
  have hlink {s u : Session} {i j : SlotId} (hs : s.Twins D u ∧ j = i) (hi : ¬ D i) :
      Twins D { p with session := s.holdFor i d target }
        { q with session := u.holdFor j d target } := by
    rw [hs.2]
    exact ⟨h.member, h.evaluated, hs.1.holdFor hi d target⟩
  exact hlink (h.session.ask m call) (hu.answer rfl hm)

theorem commit (h : Twins D p q) {offsets : Option OffsetMap} {kind : AppEvent.Kind} {m : Method}
    {call : OffsetMap → Nat → Call} (hm : m.isBare = false) :
    (p.commit t offsets kind m call).Unasked D →
      Twins D (p.commit t offsets kind m call) (q.commit t offsets kind m call) := by
  unfold Processor.commit
  rw [h.has, h.subscription]
  simp only
  split
  · split
    · exact fun _ => h.complete t _
    · exact h.delegate hm
  · exact fun _ => h.failMissing t _ _

theorem commitAsync (h : Twins D p q) {offsets : Option OffsetMap} :
    (p.commitAsync t offsets).Unasked D →
      Twins D (p.commitAsync t offsets) (q.commitAsync t offsets) := h.commit rfl

theorem commitSync (h : Twins D p q) {offsets : Option OffsetMap} :
    (p.commitSync t offsets).Unasked D →
      Twins D (p.commitSync t offsets) (q.commitSync t offsets) := h.commit rfl

theorem fetchCommitted (h : Twins D p q) {parts : PartitionSet} :
    (p.fetchCommitted t parts).Unasked D →
      Twins D (p.fetchCommitted t parts) (q.fetchCommitted t parts) := by
  unfold Processor.fetchCommitted
  rw [h.has]
  split
  · split
    · exact fun _ => h.complete t _
    · exact h.delegate rfl
  · exact fun _ => h.failMissing t _ _

theorem listOffsets (h : Twins D p q) {times : PositionMap} {requireTimes : Bool} :
    (p.listOffsets t times requireTimes).Unasked D →
      Twins D (p.listOffsets t times requireTimes) (q.listOffsets t times requireTimes) := by
  unfold Processor.listOffsets
  rw [h.has]
  split
  · split
    · exact fun _ => h.complete t _
    · exact h.delegate rfl
  · exact fun _ => h.failMissing t _ _

theorem createFetches (h : Twins D p q) :
    (∀ f, (p.createFetches t).session.futures[p.session.futures.size]? = some f → D f.2 → D t.slot) →
      Twins D (p.createFetches t) (q.createFetches t) := by
  unfold Processor.createFetches
  rw [h.has, h.subscription]
  split
  · exact fun hD => h.delegate_of_imp (hD _ (Session.futures_ask _ _ _))
  · exact fun _ => h.failMissing t _ _

theorem resetPositions (h : Twins D p q) :
    (p.resetPositions t).Unasked D → Twins D (p.resetPositions t) (q.resetPositions t) := by
  unfold Processor.resetPositions
  rw [h.has, h.subscription]
  simp only
  split
  · exact fun _ => h.complete t _
  · split
    · exact fun _ => h.fail t _
    · split
      · exact h.askFor rfl
      · exact fun _ => h.failMissing t _ _

theorem checkPositions (h : Twins D p q) :
    (p.checkPositions t).Unasked D → Twins D (p.checkPositions t) (q.checkPositions t) := by
  unfold Processor.checkPositions
  rw [h.has, h.subscription]
  simp only
  split
  · exact fun _ => h.complete t _
  · split
    · exact h.askFor rfl
    · exact h.resetPositions

theorem currentLag (h : Twins D p q) {tp : TopicPartition} {isolation : IsolationLevel} :
    (p.currentLag t tp isolation).Unasked D →
      Twins D (p.currentLag t tp isolation) (q.currentLag t tp isolation) := by
  unfold Processor.currentLag
  rw [h.has, h.subscription]
  simp only
  split
  · exact fun hu => (h.askFor rfl hu).complete t _
  · exact fun _ => h.complete t _

theorem applyDeferred (h : Twins D p q) (update : Deferral × Value) :
    (p.applyDeferred update).Unasked D →
      Twins D (p.applyDeferred update) (q.applyDeferred update) := by
  obtain ⟨d, v⟩ := update
  cases d with
  | positions t =>
    have hs := h.withSubscription (takePositions · (positionsOf v))
    intro _
    unfold Processor.applyDeferred
    simp only [hs.subscription]
    exact hs.complete t _
  | committed t => exact (h.withSubscription _).resetPositions
  | endOffsets isolation => exact fun _ => h.withSubscription (takeEnds isolation · (lookupsOf v))

/-! ### Subscribing and leaving -/

theorem requestMetadata (h : Twins D p q) : Twins D p.requestMetadata q.requestMetadata := by
  unfold Processor.requestMetadata
  rw [h.session.script]
  split
  · exact h.record _ _
  · exact h

theorem subscriptionUpdated (h : Twins D p q) :
    Twins D p.subscriptionUpdated q.subscriptionUpdated := h.withMember _

theorem evaluatePattern (h : Twins D p q) :
    Twins D p.evaluatePattern.1 q.evaluatePattern.1 ∧
      q.evaluatePattern.2 = p.evaluatePattern.2 := by
  unfold Processor.evaluatePattern
  simp only [h.session.script, h.evaluated, h.subscription]
  split
  · exact ⟨h, rfl⟩
  · have hr := h.record .listTopics .listTopics
    have hk := hr.withEvaluated (some p.session.script.metadataVersion)
    simp only [hr.subscription, hk.subscription]
    split
    · exact ⟨hk.withSubscription fun _ => _, rfl⟩
    · exact ⟨hk, rfl⟩

theorem subscribeTopics (h : Twins D p q) (topics : SortedSet String) :
    Twins D (p.subscribeTopics t topics) (q.subscribeTopics t topics) := by
  unfold Processor.subscribeTopics
  rw [h.member, h.subscription]
  split
  · exact h.failMissing t _ _
  · split
    · rename_i s changed _
      have hs := h.withSubscription fun _ => s
      simp only
      split
      · exact hs.requestMetadata.subscriptionUpdated.succeed t
      · exact hs.subscriptionUpdated.succeed t
    · exact h.fail t _

theorem subscribePattern (h : Twins D p q) (source : String) :
    Twins D (p.subscribePattern t source) (q.subscribePattern t source) := by
  unfold Processor.subscribePattern
  rw [h.member, h.subscription]
  split
  · exact h.failMissing t _ _
  · split
    · exact h.fail t _
    · rename_i s _
      have hs := (h.withSubscription fun _ => s).withEvaluated none
      exact (hs.evaluatePattern.1.requestMetadata.subscriptionUpdated).succeed t

theorem refreshPattern (h : Twins D p q) :
    Twins D (p.refreshPattern t) (q.refreshPattern t) := by
  obtain ⟨he, hc⟩ := h.evaluatePattern
  unfold Processor.refreshPattern
  rw [h.session.script]
  split
  · simp only [hc]
    split
    · exact he.subscriptionUpdated.succeed t
    · exact he.succeed t
  · exact h.failMissing t _ _

theorem assign (h : Twins D p q) (time : Int64) (parts : PartitionSet) :
    Twins D (p.assign t time parts) (q.assign t time parts) := by
  have hk := h.updateCommitTimer time
  unfold Processor.assign
  simp only [hk.subscription]
  exact hk.completeWith t _

/-- A request to leave is linked to the slot that the member answers with, which is none of those in
`D`. -/
theorem leave (h : Twins D p q) {f : Membership → Membership × SlotId}
    (hf : ∀ m n : Membership, m.Twins D n → (f m).1.Twins D (f n).1 ∧ (f n).2 = (f m).2)
    (hi : ∀ m, p.membership? = some m → ¬ D (f m).2) {p' q' : Processor} (h' : Twins D p' q') :
    Twins D ((p.leave t f).getD p') ((q.leave t f).getD q') := by
  unfold Processor.leave
  obtain ⟨hp, hq⟩ | ⟨m, n, hp, hq, hm⟩ := h.membership?
  · rw [hp, hq]
    exact h'
  · obtain ⟨hl, hs⟩ := hf m n hm
    rw [hp, hq]
    simp only [Option.map_some, Option.getD_some, hs]
    exact (h.withMembership hl).withSession (hl.session.chain fun hD => absurd hD (hi m hp))

theorem unsubscribe (h : Twins D p q) (hi : ∀ m, p.membership? = some m → ¬ D m.leave.2) :
    Twins D (p.unsubscribe t) (q.unsubscribe t) :=
  (h.withEvaluated none).leave (fun _ _ hm => hm.leave) hi
    (((h.withEvaluated none).withSubscription _).succeed t)

theorem leaveOnClose (h : Twins D p q)
    (hi : ∀ m, p.membership? = some m → ¬ D m.leaveOnClose.2) :
    Twins D (p.leaveOnClose t) (q.leaveOnClose t) :=
  h.leave (fun _ _ hm => hm.leaveOnClose) hi (h.succeed t)

/-! ### Managers -/

theorem signalManager (h : Twins D p q) (m : Manager) :
    Twins D (p.signalManager m) (q.signalManager m) := by
  unfold Processor.signalManager
  rw [h.has]
  split
  · exact h.record _ _
  · exact h

theorem tasksCallbackDone (h : Twins D p q) (c : TasksCallback) (slot : SlotId)
    (fault : Option Fault) :
    Twins D (p.tasksCallbackDone c slot fault) (q.tasksCallbackDone c slot fault) := by
  unfold Processor.tasksCallbackDone
  rw [h.session.script]
  split
  · exact h.withSession ((h.session.record _ _).complete slot _)
  · exact h

theorem drainOutcomes (h : Twins D p q) :
    Twins D p.drainOutcomes.1 q.drainOutcomes.1 ∧ q.drainOutcomes.2 = p.drainOutcomes.2 := by
  unfold Processor.drainOutcomes
  rw [h.has, h.session.script]
  split
  · exact ⟨⟨h.member, h.evaluated, h.session.slots, h.session.clock, h.session.subscription, rfl,
      h.session.futures⟩, rfl⟩
  · exact ⟨h, rfl⟩

theorem publishSnapshot (h : Twins D p q) : Twins D p.publishSnapshot q.publishSnapshot := by
  unfold Processor.publishSnapshot
  obtain ⟨hp, hq⟩ | ⟨m, n, hp, hq, hm⟩ := h.membership?
  · rw [hp, hq]
    exact h
  · rw [hp, hq]
    simp only [h.has, hm.snapshot]
    split
    · exact h.withSession (h.session.giveSnapshot _)
    · exact h

end Twins

end Processor

end GroupConsumer
