import GroupConsumer.Proofs.Run.Turn

/-!
# Who asks for a commit before a revocation

Only a member that reconciles asks the commit manager to commit before partitions are given up. The
processor makes many other calls by itself, but never that one: whatever happens that is no trigger
for the member, the calls that come to it are others (`refrains_undergo`).
-/

namespace GroupConsumer

/-- Whether a call asks for a commit before partitions are given up. -/
def Call.isRevocation : Call → Bool
  | commitBeforeRevocation .. => true
  | _ => false

namespace Session

/-- From `s` to `t` no commit before a revocation is asked for. -/
def Refrains (s t : Session) : Prop :=
  ∃ cs, t.calls.toList = s.calls.toList ++ cs ∧ ∀ c ∈ cs, c.isRevocation = false

variable {s t u : Session}

theorem refrains_of_calls (h : t.calls = s.calls) : s.Refrains t :=
  ⟨[], by rw [h, List.append_nil], by simp⟩

theorem Grows.refrains {es : List BackgroundEvent} (h : s.Grows t es []) : s.Refrains t :=
  ⟨[], h.calls, by simp⟩

theorem Refrains.trans (h : s.Refrains t) (h' : t.Refrains u) : s.Refrains u := by
  obtain ⟨cs, hc, hn⟩ := h
  obtain ⟨cs', hc', hn'⟩ := h'
  refine ⟨cs ++ cs', by rw [hc', hc, List.append_assoc], fun c hm => ?_⟩
  rcases List.mem_append.1 hm with hm | hm
  · exact hn c hm
  · exact hn' c hm

theorem refrains_record (s : Session) {c : Call} (hc : c.isRevocation = false) :
    s.Refrains (s.record c) := by
  refine ⟨[c], Array.toList_push, fun d hd => ?_⟩
  rwa [List.mem_singleton.1 hd]

theorem refrains_ask (s : Session) (m : Method) {call : Nat → Call}
    (hc : ∀ n, (call n).isRevocation = false) : s.Refrains (s.ask m call).1 := by
  refine ⟨[call s.futures.size], (grows_ask s m call).calls, fun d hd => ?_⟩
  rw [List.mem_singleton.1 hd]
  exact hc _

theorem refrains_giveSnapshot (s : Session) (snap : MemberSnapshot) :
    s.Refrains (s.giveSnapshot snap) := by
  obtain ⟨ms, delays, he⟩ := giveSnapshot_eq s snap
  rw [he]
  split
  · exact refrains_record s rfl
  · exact refrains_of_calls rfl

theorem refrains_undergo (s : Session) (o : Outside) : s.Refrains (s.undergo o) := by
  cases o <;> exact refrains_of_calls rfl

end Session

namespace Processor

variable {p : Processor} {c : Cause} {t : Ticket}

theorem refrains_complete (p : Processor) (t : Ticket) (o : Outcome Value) :
    p.session.Refrains (p.complete t o).session := Session.refrains_of_calls rfl

theorem refrains_delegate (p : Processor) (t : Ticket) (m : Method) {call : Nat → Call}
    (hc : ∀ n, (call n).isRevocation = false) :
    p.session.Refrains (p.delegate t m call).session :=
  (Session.refrains_ask p.session m hc).trans (Session.refrains_of_calls rfl)

theorem refrains_askFor (p : Processor) (d : Deferral) (target : Option SlotId) (m : Method)
    {call : Nat → Call} (hc : ∀ n, (call n).isRevocation = false) :
    p.session.Refrains (p.askFor d target m call).session :=
  (Session.refrains_ask p.session m hc).trans (Session.refrains_of_calls rfl)

theorem refrains_completeWith (p : Processor) (t : Ticket) (r : Except Fault Subscription) :
    p.session.Refrains (p.completeWith t r).session := by
  cases r <;> exact Session.refrains_of_calls rfl

/-! ### What the processor does by itself -/

theorem refrains_updateCommitTimer (p : Processor) (now : Int64) :
    p.session.Refrains (p.updateCommitTimer now).session := by
  unfold updateCommitTimer
  split
  · exact Session.refrains_record _ rfl
  · exact Session.refrains_of_calls rfl

theorem refrains_requestMetadata (p : Processor) :
    p.session.Refrains p.requestMetadata.session := by
  unfold requestMetadata
  split
  · exact Session.refrains_record _ rfl
  · exact Session.refrains_of_calls rfl

theorem refrains_signalManager (p : Processor) (m : Manager) :
    p.session.Refrains (p.signalManager m).session := by
  unfold signalManager
  split
  · exact Session.refrains_record _ rfl
  · exact Session.refrains_of_calls rfl

theorem refrains_commit (p : Processor) (t : Ticket) (offsets : Option OffsetMap)
    (kind : AppEvent.Kind) (m : Method) {call : OffsetMap → Nat → Call}
    (hc : ∀ o n, (call o n).isRevocation = false) :
    p.session.Refrains (p.commit t offsets kind m call).session := by
  unfold commit
  split
  · simp only
    split
    · exact refrains_complete p t _
    · exact refrains_delegate p t m (hc _)
  · exact refrains_complete p t _

theorem refrains_commitAsync (p : Processor) (t : Ticket) (offsets : Option OffsetMap) :
    p.session.Refrains (p.commitAsync t offsets).session :=
  refrains_commit p t offsets _ _ fun _ _ => rfl

theorem refrains_commitSync (p : Processor) (t : Ticket) (offsets : Option OffsetMap) :
    p.session.Refrains (p.commitSync t offsets).session :=
  refrains_commit p t offsets _ _ fun _ _ => rfl

theorem refrains_fetchCommitted (p : Processor) (t : Ticket) (parts : PartitionSet) :
    p.session.Refrains (p.fetchCommitted t parts).session := by
  unfold fetchCommitted
  split
  · split
    · exact refrains_complete p t _
    · exact refrains_delegate p t _ fun _ => rfl
  · exact refrains_complete p t _

theorem refrains_listOffsets (p : Processor) (t : Ticket) (times : PositionMap)
    (requireTimes : Bool) : p.session.Refrains (p.listOffsets t times requireTimes).session := by
  unfold listOffsets
  split
  · split
    · exact refrains_complete p t _
    · exact refrains_delegate p t _ fun _ => rfl
  · exact refrains_complete p t _

theorem refrains_createFetches (p : Processor) (t : Ticket) :
    p.session.Refrains (p.createFetches t).session := by
  unfold createFetches
  split
  · exact refrains_delegate p t _ fun _ => rfl
  · exact refrains_complete p t _

theorem refrains_tasksCallbackDone (p : Processor) (c : TasksCallback) (slot : SlotId)
    (fault : Option Fault) : p.session.Refrains (p.tasksCallbackDone c slot fault).session := by
  unfold tasksCallbackDone
  split
  · exact Session.refrains_record p.session rfl
  · exact Session.refrains_of_calls rfl

theorem refrains_resetPositions (p : Processor) (t : Ticket) :
    p.session.Refrains (p.resetPositions t).session := by
  obtain ⟨o, he⟩ | ⟨resets, -, he⟩ := resetPositions_cases p t <;> rw [he]
  · exact refrains_complete p t o
  · exact refrains_askFor p _ _ _ fun _ => rfl

theorem refrains_checkPositions (p : Processor) (t : Ticket) :
    p.session.Refrains (p.checkPositions t).session := by
  obtain ⟨o, he⟩ | he | he := checkPositions_cases p t <;> rw [he]
  · exact refrains_complete p t o
  · exact refrains_askFor p _ _ _ fun _ => rfl
  · exact refrains_resetPositions p t

theorem refrains_currentLag (p : Processor) (t : Ticket) (tp : TopicPartition)
    (isolation : IsolationLevel) : p.session.Refrains (p.currentLag t tp isolation).session := by
  unfold currentLag
  simp only
  split
  · exact (refrains_askFor p (.endOffsets isolation) none .lookUpOffsets fun _ => rfl).trans
      (refrains_complete _ t _)
  · exact refrains_complete p t _

theorem refrains_evaluatePattern (p : Processor) :
    p.session.Refrains p.evaluatePattern.1.session := by
  have hr : p.session.Refrains (p.session.record .listTopics) := Session.refrains_record _ rfl
  unfold evaluatePattern
  simp only
  split
  · exact Session.refrains_of_calls rfl
  · split
    · exact hr
    · exact hr

theorem refrains_subscribeTopics (p : Processor) (t : Ticket) (topics : SortedSet String) :
    p.session.Refrains (p.subscribeTopics t topics).session := by
  unfold subscribeTopics
  split
  · exact refrains_complete p t _
  · split
    · rename_i s changed _
      simp only
      split
      · exact refrains_requestMetadata (p.withSubscription fun _ => s)
      · exact Session.refrains_of_calls rfl
    · exact refrains_complete p t _

theorem refrains_subscribePattern (p : Processor) (t : Ticket) (source : String) :
    p.session.Refrains (p.subscribePattern t source).session := by
  unfold subscribePattern
  split
  · exact refrains_complete p t _
  · split
    · exact refrains_complete p t _
    · rename_i s _
      let q : Processor := { p.withSubscription fun _ => s with evaluated := none }
      exact (refrains_evaluatePattern q).trans (refrains_requestMetadata q.evaluatePattern.1)

theorem refrains_refreshPattern (p : Processor) (t : Ticket) :
    p.session.Refrains (p.refreshPattern t).session := by
  unfold refreshPattern
  split
  · simp only
    split
    · exact refrains_evaluatePattern p
    · exact refrains_evaluatePattern p
  · exact refrains_complete p t _

theorem refrains_applyDeferred (p : Processor) (update : Deferral × Value) :
    p.session.Refrains (p.applyDeferred update).session := by
  obtain ⟨d, v⟩ := update
  cases d with
  | positions | endOffsets => exact Session.refrains_of_calls rfl
  | committed t => exact refrains_resetPositions (p.withSubscription (takeCommitted · (offsetsOf v))) t

theorem refrains_drainOutcomes (p : Processor) :
    p.session.Refrains p.drainOutcomes.1.session := by
  unfold drainOutcomes
  split <;> exact Session.refrains_of_calls rfl

theorem refrains_publishSnapshot (p : Processor) :
    p.session.Refrains p.publishSnapshot.session := by
  unfold publishSnapshot
  split
  · split
    · exact Session.refrains_giveSnapshot _ _
    · exact Session.refrains_of_calls rfl
  · exact Session.refrains_of_calls rfl

/-- No event that is received makes the processor ask for a commit before a revocation, unless it
asks the member to leave. -/
theorem refrains_receive {e : AppEvent} (he : e.isLeave = false) :
    p.session.Refrains (p.receive e).session := by
  cases e with
  | poll time gate =>
    show p.session.Refrains (if _ then _ else _ : Processor).session
    split
    · exact Session.refrains_record p.session rfl
    · exact Session.refrains_of_calls rfl
  | commitAsync t offsets => exact refrains_commitAsync p t offsets
  | commitSync t offsets => exact refrains_commitSync p t offsets
  | commitOnClose => exact refrains_signalManager p .commit
  | stopCoordinatorOnClose => exact refrains_signalManager p .coordinator
  | fetchCommitted t parts => exact refrains_fetchCommitted p t parts
  | listOffsets t times requireTimes => exact refrains_listOffsets p t times requireTimes
  | createFetches t => exact refrains_createFetches p t
  | checkPositions t => exact refrains_checkPositions p t
  | resetOffset t | seek t => exact refrains_completeWith p t _
  | subscribeTopics t topics => exact refrains_subscribeTopics p t topics
  | subscribePattern t source => exact refrains_subscribePattern p t source
  | refreshPattern t => exact refrains_refreshPattern p t
  | unsubscribe | leaveOnClose => cases he
  | assign t time parts =>
    exact (refrains_updateCommitTimer p time).trans (refrains_completeWith _ t _)
  | currentLag t tp isolation => exact refrains_currentLag p t tp isolation
  | callbackDone method slot fault =>
    cases hm : p.membership? with
    | none =>
      rw [receive, hm]
      exact Session.refrains_of_calls rfl
    | some m =>
      rw [receive_callbackDone hm]
      obtain ⟨x, -, rfl⟩ := Option.map_eq_some_iff.1 hm
      exact Session.refrains_of_calls rfl
  | tasksCallbackDone c slot fault => exact refrains_tasksCallbackDone p c slot fault

/-- Nothing but a member in motion asks for a commit before a revocation. -/
theorem refrains_undergo (hc : c.trigger? p = none) :
    p.session.Refrains (p.undergo c).session := by
  cases c with
  | outside o => exact Session.refrains_undergo p.session o
  | received e =>
    refine refrains_receive ?_
    cases e with
    | unsubscribe | leaveOnClose => cases hc
    | _ => rfl
  | polled | heard | advanced => cases hc
  | pollDone time gate => exact refrains_updateCommitTimer p time
  | lookups => exact Session.refrains_of_calls rfl
  | deferred update => exact refrains_applyDeferred p update
  | drained => exact refrains_drainOutcomes p
  | told => exact refrains_publishSnapshot p
  | reported fs => exact (Session.grows_report p.session fs).refrains

end Processor

end GroupConsumer
