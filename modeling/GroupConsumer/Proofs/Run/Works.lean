import GroupConsumer.Proofs.Run.Turn

/-!
# Which slots a cause works on

A cause names slots: that of a ticket, the gate of a poll, the slot of a callback, or whatever somebody
outside makes use of. These and new slots are all that it works on, as long as it does not set a
member in motion (`worksOn_undergo`), and the answers that it keeps for a later round are those to
lookups of its own (`proceeds_undergo`). What a member does to the slots is said elsewhere.
-/

namespace GroupConsumer

/-- The slots that somebody outside completes or may complete later. -/
def Outside.names : Outside → List SlotId
  | .settle i _ => [i]
  | .listen _ l => l.aimed
  | .fresh | .drain | .clock _ | .script _ => []

/-- The lookups whose answers somebody outside has kept for a later round. -/
def Outside.deferrals : Outside → List Deferral
  | .listen _ (.hold d _) => [d]
  | _ => []

/-- The slots that a cause names. -/
def Cause.names : Cause → List SlotId
  | .outside o => o.names
  | .received e => e.names
  | .pollDone _ gate => [gate]
  | .deferred update => update.1.slot?.toList
  | .polled | .heard _ | .advanced _ | .lookups | .drained | .told | .reported _ => []

/-- The lookups whose answers a cause keeps for a later round. What committed offsets leave undone is
looked up anew. -/
def Cause.deferrals : Cause → List Deferral
  | .outside o => o.deferrals
  | .received e => e.deferrals
  | .deferred (.committed t, _) => [.positions t]
  | _ => []

theorem Session.proceeds_undergo (s : Session) (o : Outside) :
    s.Proceeds (· ∈ o.names) (· ∈ o.deferrals) (s.undergo o) := by
  cases o with
  | fresh => exact proceeds_fresh s _ _
  | settle i o => exact proceeds_complete _ (List.mem_singleton_self i) o
  | listen i l =>
    refine .listened .rest i (fun _ => id) fun d target hd => ?_
    subst hd
    exact List.mem_singleton_self d
  | drain | clock | script => exact proceeds_of_slots _ _ rfl rfl

namespace Processor

variable {p q : Processor} {t : Ticket} {D : List Deferral}

/-- A ticket succeeds in the end. -/
theorem Proceeds.succeed (h : p.Proceeds [t.slot] D q) : p.Proceeds [t.slot] D (q.succeed t) :=
  .completed h (Or.inl List.mem_cons_self) _

/-! ### What concerns no slot -/

section Slots

variable (p) (I : List SlotId) (D)

theorem proceeds_requestMetadata : p.Proceeds I D p.requestMetadata := by
  unfold requestMetadata
  split <;> exact Session.proceeds_of_slots _ _ rfl rfl

theorem proceeds_evaluatePattern : p.Proceeds I D p.evaluatePattern.1 := by
  unfold evaluatePattern
  simp only
  split
  · exact .rest
  · split <;> exact Session.proceeds_of_slots _ _ rfl rfl

theorem proceeds_drainOutcomes : p.Proceeds I D p.drainOutcomes.1 := by
  unfold drainOutcomes
  split <;> exact Session.proceeds_of_slots _ _ rfl rfl

theorem proceeds_publishSnapshot : p.Proceeds I D p.publishSnapshot := by
  unfold publishSnapshot
  split
  · split
    · exact Session.proceeds_of_slots _ _ (Session.slots_giveSnapshot _ _)
        (Session.futures_giveSnapshot _ _)
    · exact .rest
  · exact .rest

end Slots

/-! ### Events that change the subscription -/

section Events

variable (p) (t)

theorem proceeds_completeWith (s : Except Fault Subscription) :
    p.Proceeds [t.slot] [] (p.completeWith t s) := by
  cases s with
  | ok s =>
    have hq : p.Proceeds [t.slot] [] (p.withSubscription fun _ => s) :=
      Session.proceeds_of_slots _ _ rfl rfl
    exact hq.succeed
  | error f => exact (handles_complete p t _).proceeds

theorem proceeds_assign (time : Int64) (parts : PartitionSet) :
    p.Proceeds [t.slot] [] (p.assign t time parts) :=
  (handles_updateCommitTimer p _ time).proceeds.trans (proceeds_completeWith _ t _)

theorem proceeds_subscribeTopics (topics : SortedSet String) :
    p.Proceeds [t.slot] [] (p.subscribeTopics t topics) := by
  unfold subscribeTopics
  split
  · exact (handles_complete p t _).proceeds
  · split
    · rename_i s changed _
      let q := p.withSubscription fun _ => s
      have hq : p.Proceeds [t.slot] [] q := Session.proceeds_of_slots _ _ rfl rfl
      simp only
      split
      · exact (hq.trans (proceeds_requestMetadata q _ _)).succeed
      · exact hq.succeed
    · exact (handles_complete p t _).proceeds

theorem proceeds_subscribePattern (source : String) :
    p.Proceeds [t.slot] [] (p.subscribePattern t source) := by
  unfold subscribePattern
  split
  · exact (handles_complete p t _).proceeds
  · split
    · exact (handles_complete p t _).proceeds
    · rename_i s _
      let q : Processor := { p.withSubscription fun _ => s with evaluated := none }
      have hq : p.Proceeds [t.slot] [] q := Session.proceeds_of_slots _ _ rfl rfl
      exact ((hq.trans (proceeds_evaluatePattern q _ _)).trans
        (proceeds_requestMetadata _ _ _)).succeed

theorem proceeds_refreshPattern : p.Proceeds [t.slot] [] (p.refreshPattern t) := by
  unfold refreshPattern
  split
  · simp only
    split
    · exact (proceeds_evaluatePattern p _ _).succeed
    · exact (proceeds_evaluatePattern p _ _).succeed
  · exact (handles_complete p t _).proceeds

end Events

/-! ### All causes -/

/-- An event that does not ask the member to leave works on the slot that it names. -/
theorem proceeds_receive {e : AppEvent} (hc : Cause.trigger? p (.received e) = none) :
    p.Proceeds e.names e.deferrals (p.receive e) := by
  cases e with
  | resetOffset t parts strategy => exact proceeds_completeWith p t _
  | subscribeTopics t topics => exact proceeds_subscribeTopics p t topics
  | subscribePattern t source => exact proceeds_subscribePattern p t source
  | refreshPattern t => exact proceeds_refreshPattern p t
  | unsubscribe | leaveOnClose => cases hc
  | assign t time parts => exact proceeds_assign p t time parts
  | seek t tp offset epoch => exact proceeds_completeWith p t _
  | _ => exact (handles_receive p rfl).proceeds

theorem proceeds_applyDeferred (p : Processor) (update : Deferral × Value) :
    p.Proceeds update.1.slot?.toList (Cause.deferrals (.deferred update)) (p.applyDeferred update) := by
  obtain ⟨d, v⟩ := update
  have hsub (I : List SlotId) (D : List Deferral) (f : Subscription → Subscription) :
      p.Proceeds I D (p.withSubscription f) := Session.proceeds_of_slots _ _ rfl rfl
  cases d with
  | positions t => exact (hsub _ _ _).trans (handles_complete _ t _).proceeds
  | committed t => exact (hsub _ _ _).trans (handles_resetPositions _ t).proceeds
  | endOffsets isolation => exact hsub _ _ _

/-- A cause that neither sets the member in motion nor takes what lookups have left takes elementary
steps, for the slots that it names and the lookups that it makes. -/
theorem proceeds_undergo {c : Cause} (hc : c.trigger? p = none) (hl : c ≠ .lookups) :
    p.Proceeds c.names c.deferrals (p.undergo c) := by
  cases c with
  | outside o => exact Session.proceeds_undergo p.session o
  | received e => exact proceeds_receive hc
  | polled | heard | advanced => cases hc
  | pollDone time gate =>
    exact ((handles_updateCommitTimer p [gate] time).completed List.mem_cons_self _).proceeds
  | lookups => exact absurd rfl hl
  | deferred update => exact proceeds_applyDeferred p update
  | drained => exact proceeds_drainOutcomes p _ _
  | told => exact proceeds_publishSnapshot p _ _
  | reported fs =>
    exact Session.proceeds_of_slots _ _ (Session.slots_report p.session fs)
      (Session.futures_report p.session fs)

/-- A cause that does not set the member in motion works on the slots that it names. -/
theorem worksOn_undergo {c : Cause} (hc : c.trigger? p = none) :
    p.WorksOn c.names (p.undergo c) := by
  by_cases hl : c = .lookups
  · subst hl
    exact Session.worksOn_takeDeferred p.session _
  · exact (proceeds_undergo hc hl).worksOn

end Processor

end GroupConsumer
