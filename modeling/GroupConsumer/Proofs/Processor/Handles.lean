import GroupConsumer.Processor.Process
import GroupConsumer.Proofs.Session.Proceeds

/-!
# What the processor only handles

Most events are none of the member's business and leave the subscription alone. The processor records
a call, asks a collaborator, completes a slot, or links one to the answer of a collaborator.
`Handles I D p q` says that a row of such steps leads from `p` to `q`, that the slots they complete
or link are in `I`, and that the answers they keep for a later round are those to the lookups in `D`.
What such steps keep is said of the single step, and so of all events that are made of them.
-/

namespace GroupConsumer.Processor

/-- Asks a collaborator and keeps its answer for a later round. -/
def askFor (p : Processor) (d : Deferral) (target : Option SlotId) (m : Method)
    (call : Nat → Call) : Processor :=
  let (session, i) := p.session.ask m call
  { p with session := session.holdFor i d target }

theorem grows_askFor (p : Processor) (d : Deferral) (target : Option SlotId) (m : Method)
    (call : Nat → Call) :
    p.session.Grows (p.askFor d target m call).session [] [call p.session.futures.size] :=
  (Session.grows_ask p.session m call).trans (Session.grows_holdFor _ _ _ _)

/-- The processor gets from `p` to `q` by recording calls, asking collaborators, completing and
linking slots in `I`, and keeping the answers to the lookups in `D`. -/
inductive Handles (I : List SlotId) (D : List Deferral) (p : Processor) : Processor → Prop
  | rest : Handles I D p p
  | recorded {q : Processor} (h : Handles I D p q) (c : Call) :
      Handles I D p (q.withSession (·.record c))
  | completed {q : Processor} (h : Handles I D p q) {i : SlotId} (hi : i ∈ I) (o : Outcome Value) :
      Handles I D p (q.withSession (·.complete i o))
  | delegated {q : Processor} (h : Handles I D p q) {t : Ticket} (ht : t.slot ∈ I) (m : Method)
      (call : Nat → Call) : Handles I D p (q.delegate t m call)
  | askedFor {q : Processor} (h : Handles I D p q) {d : Deferral} {target : Option SlotId}
      (hI : ∀ i ∈ Listener.aimed (.hold d target), i ∈ I) (hD : d ∈ D) (m : Method)
      (call : Nat → Call) : Handles I D p (q.askFor d target m call)

/-- The slots of the processor are worked on in `I` alone, apart from new ones. -/
def WorksOn (p : Processor) (I : List SlotId) (q : Processor) : Prop :=
  p.session.WorksOn (· ∈ I) q.session

/-- The session of the processor takes elementary steps, on slots in `I` and for lookups in `D`. -/
def Proceeds (p : Processor) (I : List SlotId) (D : List Deferral) (q : Processor) : Prop :=
  p.session.Proceeds (· ∈ I) (· ∈ D) q.session

variable {p q r : Processor} {I : List SlotId} {D D' : List Deferral}

theorem Proceeds.trans (h : p.Proceeds I D q) (h' : q.Proceeds I D r) : p.Proceeds I D r :=
  Session.Proceeds.trans h h'

theorem Proceeds.worksOn (h : p.Proceeds I D q) : p.WorksOn I q := Session.Proceeds.worksOn h

namespace Handles

variable {i : SlotId} {t : Ticket}

/-! ### What is kept -/

theorem member (h : Handles I D p q) : q.member = p.member := by
  induction h with
  | rest => rfl
  | recorded _ _ ih | completed _ _ _ ih | delegated _ _ _ _ ih | askedFor _ _ _ _ _ ih =>
    exact ih

theorem subscription (h : Handles I D p q) : q.subscription = p.subscription := by
  induction h with
  | rest => rfl
  | recorded _ _ ih | completed _ _ _ ih => exact ih
  | delegated _ _ _ _ ih | askedFor _ _ _ _ _ ih =>
    exact (Session.subscription_ask _ _ _).trans ih

/-- Calls are made, and the caller hears nothing. -/
theorem grows (h : Handles I D p q) : ∃ cs, p.session.Grows q.session [] cs := by
  have step {s t u : Session} {cs : List Call} (h : ∃ cs, s.Grows t [] cs) (h' : t.Grows u [] cs) :
      ∃ cs, s.Grows u [] cs := by
    obtain ⟨cs, h⟩ := h
    exact ⟨_, h.trans h'⟩
  induction h with
  | rest => exact ⟨[], Session.Grows.refl _⟩
  | recorded _ _ ih => exact step ih (Session.grows_record _ _)
  | completed _ _ _ ih => exact step ih (Session.grows_complete _ _ _)
  | delegated _ _ _ _ ih =>
    exact step ih ((Session.grows_ask _ _ _).trans (Session.grows_chain _ _ _))
  | askedFor _ _ _ _ _ ih =>
    exact step ih ((Session.grows_ask _ _ _).trans (Session.grows_holdFor _ _ _ _))

theorem proceeds (h : Handles I D p q) : p.Proceeds I D q := by
  unfold Processor.Proceeds
  induction h with
  | rest => exact .rest
  | recorded _ _ ih => exact ih.trans (Session.proceeds_of_slots _ _ rfl rfl)
  | completed _ hi o ih => exact .completed ih (Or.inl hi) o
  | delegated _ ht m call ih =>
    exact (ih.trans (Session.proceeds_ask _ _ _ m call)).trans (Session.proceeds_chain _ ht _)
  | askedFor _ hI hD m call ih =>
    exact (ih.trans (Session.proceeds_ask _ _ _ m call)).trans
      (Session.proceeds_holdFor hI hD _)

theorem worksOn (h : Handles I D p q) : p.WorksOn I q := h.proceeds.worksOn

theorem mono (h : Handles I D p q) (hD : ∀ d ∈ D, d ∈ D') : Handles I D' p q := by
  induction h with
  | rest => exact .rest
  | recorded _ c ih => exact .recorded ih c
  | completed _ hi o ih => exact .completed ih hi o
  | delegated _ ht m call ih => exact .delegated ih ht m call
  | askedFor _ hI hd m call ih => exact .askedFor ih hI (hD _ hd) m call

/-! ### Single steps -/

theorem complete (h : Handles [t.slot] D p q) (o : Outcome Value) :
    Handles [t.slot] D p (q.complete t o) := h.completed List.mem_cons_self o

theorem fail (h : Handles [t.slot] D p q) (f : Fault) : Handles [t.slot] D p (q.fail t f) :=
  h.complete _

theorem failMissing (h : Handles [t.slot] D p q) (c : Missing) (kind : AppEvent.Kind) :
    Handles [t.slot] D p (q.failMissing t c kind) := h.fail _

theorem delegate (h : Handles [t.slot] D p q) (m : Method) (call : Nat → Call) :
    Handles [t.slot] D p (q.delegate t m call) := h.delegated List.mem_cons_self m call

end Handles

/-! ### Events -/

section Events

variable (p : Processor) (t : Ticket)

theorem handles_complete (o : Outcome Value) : Handles [t.slot] [] p (p.complete t o) :=
  Handles.rest.complete o

theorem handles_updateCommitTimer (I : List SlotId) (now : Int64) :
    Handles I [] p (p.updateCommitTimer now) := by
  unfold updateCommitTimer
  split
  · exact .recorded .rest _
  · exact .rest

theorem handles_requestMetadata (I : List SlotId) : Handles I [] p p.requestMetadata := by
  unfold requestMetadata
  split
  · exact .recorded .rest _
  · exact .rest

theorem handles_signalManager (I : List SlotId) (m : Manager) : Handles I [] p (p.signalManager m) := by
  unfold signalManager
  split
  · exact .recorded .rest _
  · exact .rest

theorem handles_tasksCallbackDone (c : TasksCallback) (slot : SlotId) (fault : Option Fault) :
    Handles [slot] [] p (p.tasksCallbackDone c slot fault) := by
  unfold tasksCallbackDone
  split
  · exact .completed (.recorded .rest _) List.mem_cons_self _
  · exact .rest

theorem handles_commit (offsets : Option OffsetMap) (kind : AppEvent.Kind) (m : Method)
    (call : OffsetMap → Nat → Call) : Handles [t.slot] [] p (p.commit t offsets kind m call) := by
  unfold commit
  split
  · simp only
    split
    · exact Handles.rest.complete _
    · exact Handles.rest.delegate _ _
  · exact Handles.rest.failMissing _ _

theorem handles_commitAsync (offsets : Option OffsetMap) :
    Handles [t.slot] [] p (p.commitAsync t offsets) := handles_commit p t offsets _ _ _

theorem handles_commitSync (offsets : Option OffsetMap) :
    Handles [t.slot] [] p (p.commitSync t offsets) := handles_commit p t offsets _ _ _

theorem handles_fetchCommitted (parts : PartitionSet) :
    Handles [t.slot] [] p (p.fetchCommitted t parts) := by
  unfold fetchCommitted
  split
  · split
    · exact Handles.rest.complete _
    · exact Handles.rest.delegate _ _
  · exact Handles.rest.failMissing _ _

theorem handles_listOffsets (times : PositionMap) (requireTimes : Bool) :
    Handles [t.slot] [] p (p.listOffsets t times requireTimes) := by
  unfold listOffsets
  split
  · split
    · exact Handles.rest.complete _
    · exact Handles.rest.delegate _ _
  · exact Handles.rest.failMissing _ _

theorem handles_createFetches : Handles [t.slot] [] p (p.createFetches t) := by
  unfold createFetches
  split
  · exact Handles.rest.delegate _ _
  · exact Handles.rest.failMissing _ _

/-- A lookup for a ticket is asked for. -/
theorem handles_askFor {d : Deferral} (hd : d.slot? = some t.slot) (m : Method) (call : Nat → Call) :
    Handles [t.slot] [d] p (p.askFor d (some t.slot) m call) :=
  .askedFor .rest (by simp [Listener.aimed, hd]) List.mem_cons_self _ _

/-- Every partition is asked for under the strategy that it awaits, or else under the default, unless
there is one for which this comes to none. -/
theorem resetsFor_cases (default : ResetStrategy)
    (needing : List (TopicPartition × Option ResetStrategy)) :
    (∃ tp r, (tp, r) ∈ needing ∧ r.getD default = .none ∧ resetsFor default needing = .error tp) ∨
      (∀ e ∈ needing, e.2.getD default ≠ .none) ∧
        resetsFor default needing = .ok (needing.map fun e => (e.1, e.2.getD default)) := by
  induction needing with
  | nil => exact Or.inr ⟨fun e he => absurd he List.not_mem_nil, rfl⟩
  | cons e needing ih =>
    obtain ⟨tp, r⟩ := e
    unfold resetsFor
    simp only
    split
    · rename_i hr
      exact Or.inl ⟨tp, r, List.mem_cons_self, hr, rfl⟩
    · rename_i hr
      obtain ⟨tp', r', hm, hn, he⟩ | ⟨hall, he⟩ := ih
      · refine Or.inl ⟨tp', r', List.mem_cons_of_mem _ hm, hn, ?_⟩
        rw [he]
        rfl
      · refine Or.inr ⟨List.forall_mem_cons.2 ⟨hr, hall⟩, ?_⟩
        rw [he]
        rfl

theorem resetsFor_eq_ok {default : ResetStrategy}
    {needing : List (TopicPartition × Option ResetStrategy)}
    {resets : List (TopicPartition × ResetStrategy)} (h : resetsFor default needing = .ok resets) :
    (∀ e ∈ needing, e.2.getD default ≠ .none) ∧
      resets = needing.map fun e => (e.1, e.2.getD default) := by
  obtain ⟨tp, r, -, -, he⟩ | ⟨hall, he⟩ := resetsFor_cases default needing
  · cases h.symm.trans he
  · exact ⟨hall, Except.ok.inj (h.symm.trans he)⟩

theorem resetsFor_eq_error {default : ResetStrategy}
    {needing : List (TopicPartition × Option ResetStrategy)} {tp : TopicPartition}
    (h : resetsFor default needing = .error tp) :
    ∃ r, (tp, r) ∈ needing ∧ r.getD default = .none := by
  obtain ⟨tp', r, hm, hn, he⟩ | ⟨-, he⟩ := resetsFor_cases default needing
  · obtain rfl := Except.error.inj (h.symm.trans he)
    exact ⟨r, hm, hn⟩
  · cases h.symm.trans he

/-- Positions are asked for, or the ticket is completed at once. -/
theorem resetPositions_cases :
    (∃ o, p.resetPositions t = p.complete t o) ∨
      ∃ resets,
        resetsFor p.subscription.defaultReset p.subscription.needingPosition = .ok resets ∧
          p.resetPositions t = p.askFor (.positions t) (some t.slot) .resolveResets
            (.resolveResets resets t.deadline ·) := by
  unfold resetPositions
  simp only
  split
  · exact Or.inl ⟨_, rfl⟩
  · split
    · exact Or.inl ⟨_, rfl⟩
    · rename_i resets hr
      split
      · exact Or.inr ⟨resets, hr, rfl⟩
      · exact Or.inl ⟨_, rfl⟩

/-- The partitions to start from committed offsets: those without a position that await no reset. -/
def uncommitted (p : Processor) : PartitionSet :=
  SortedSet.ofList ((p.subscription.needingPosition.filter (·.2.isNone)).map (·.1))

/-- Committed offsets are looked up, positions are asked for, or there is nothing to do. -/
theorem checkPositions_cases :
    (∃ o, p.checkPositions t = p.complete t o) ∨
      p.checkPositions t = p.askFor (.committed t) (some t.slot) .fetchCommitted
        (.fetchCommitted p.uncommitted t.deadline ·) ∨
      p.checkPositions t = p.resetPositions t := by
  unfold checkPositions
  simp only
  split
  · exact Or.inl ⟨_, rfl⟩
  · split
    · exact Or.inr (Or.inl rfl)
    · exact Or.inr (Or.inr rfl)

theorem handles_resetPositions : Handles [t.slot] [.positions t] p (p.resetPositions t) := by
  obtain ⟨o, he⟩ | ⟨resets, -, he⟩ := resetPositions_cases p t
  · rw [he]
    exact Handles.rest.complete o
  · rw [he]
    exact handles_askFor p t rfl _ _

theorem handles_checkPositions : Handles [t.slot] [.committed t, .positions t] p (p.checkPositions t) := by
  obtain ⟨o, he⟩ | he | he := checkPositions_cases p t
  · rw [he]
    exact Handles.rest.complete o
  · rw [he]
    exact (handles_askFor p t rfl _ _).mono fun _ hd => by simp_all
  · rw [he]
    exact (handles_resetPositions p t).mono fun _ hd => List.mem_cons_of_mem _ hd

theorem handles_currentLag (tp : TopicPartition) (isolation : IsolationLevel) :
    Handles [t.slot] [.endOffsets isolation] p (p.currentLag t tp isolation) := by
  unfold currentLag
  simp only
  split
  · exact Handles.complete (.askedFor .rest (by simp [Listener.aimed, Deferral.slot?]) (by simp) _ _) _
  · exact Handles.rest.complete _

end Events

end GroupConsumer.Processor
