import GroupConsumer.Proofs.Processor.Handles
import GroupConsumer.Proofs.Subscription.InPlace

/-!
# Rejected requests

A request of the caller to change what is read, or where it is read from, is answered at once. The
processor looks for all that stands in its way before it changes anything: a request that is refused
leaves the subscription, the member and the version at which the pattern was evaluated as they were
(`rejected_unchanged`).
-/

namespace GroupConsumer

/-! ### Why an operation is refused -/

/-- The kinds of the faults with which a request is refused. -/
def Fault.refusals : List String :=
  ["SubscriptionConflict", "InvalidArgument", "IllegalState", "MissingCollaborator"]

/-- If there is a fault, it is one with which a request is refused. -/
def OnlyRefused {α : Type} (r : Except Fault α) : Prop :=
  ∀ f, r = .error f → f.kind ∈ Fault.refusals

section OnlyRefused

variable {α β : Type} {r : Except Fault α}

theorem onlyRefused_ok (a : α) : OnlyRefused (.ok a) := by
  intro f h
  cases h

theorem onlyRefused_error {f : Fault} (h : f.kind ∈ Fault.refusals) :
    OnlyRefused (.error f : Except Fault α) := by
  intro f' h'
  cases h'
  exact h

theorem onlyRefused_argument (cause : InvalidArgument) :
    OnlyRefused (.error (.invalidArgument cause) : Except Fault α) :=
  onlyRefused_error (by simp [Fault.kind, Fault.refusals])

theorem onlyRefused_state (cause : IllegalState) :
    OnlyRefused (.error (.illegalState cause) : Except Fault α) :=
  onlyRefused_error (by simp [Fault.kind, Fault.refusals])

theorem OnlyRefused.map (h : OnlyRefused r) (g : α → β) : OnlyRefused (r.map g) := by
  cases r with
  | ok a => exact onlyRefused_ok (g a)
  | error f => exact onlyRefused_error (h f rfl)

theorem OnlyRefused.bind (h : OnlyRefused r) {g : α → Except Fault β}
    (hg : ∀ a, OnlyRefused (g a)) : OnlyRefused (r >>= g) := by
  cases r with
  | ok a => exact hg a
  | error f => exact onlyRefused_error (h f rfl)

end OnlyRefused

theorem Pattern.onlyRefused_ofSource (source : String) : OnlyRefused (ofSource source) := by
  unfold ofSource CompiledPattern.ofSource
  split
  · exact onlyRefused_argument _
  · split
    · exact onlyRefused_ok _
    · exact onlyRefused_argument _

namespace Subscription

variable (s : Subscription)

/-- Once the form is taken, nothing is refused any more. -/
theorem onlyRefused_withForm_bind {α : Type} (form : SubscriptionForm) {g : Subscription → Except Fault α}
    (hg : ∀ t, OnlyRefused (g t)) : OnlyRefused (s.withForm form >>= g) := by
  refine OnlyRefused.bind ?_ hg
  unfold withForm
  split
  · exact onlyRefused_ok _
  · exact onlyRefused_error (by simp [Fault.kind, Fault.refusals])

theorem onlyRefused_adjustAssigned (tp : TopicPartition) (g : PartitionState → PartitionState) :
    OnlyRefused (s.adjustAssigned tp g) := by
  unfold adjustAssigned
  split
  · exact onlyRefused_ok _
  · exact onlyRefused_state _

/-- An operation fails for no other reason than that it is refused. -/
theorem onlyRefused_attempt (op : Operation) : OnlyRefused (s.attempt op) := by
  cases op with
  | subscribe topics =>
    refine OnlyRefused.map ?_ _
    unfold Subscription.subscribe
    split
    · exact onlyRefused_argument _
    · exact s.onlyRefused_withForm_bind _ fun _ => onlyRefused_ok _
  | subscribePattern source =>
    exact (Pattern.onlyRefused_ofSource source).bind fun _ =>
      s.onlyRefused_withForm_bind _ fun _ => onlyRefused_ok _
  | subscribeMatched topics =>
    refine OnlyRefused.map ?_ _
    unfold Subscription.subscribeMatched
    split
    · exact onlyRefused_ok _
    · exact onlyRefused_state _
  | assignFromUser parts =>
    refine OnlyRefused.map ?_ _
    unfold Subscription.assignFromUser
    split
    · exact onlyRefused_argument _
    · exact s.onlyRefused_withForm_bind _ fun _ => onlyRefused_ok _
  | assignFromGroup parts =>
    refine OnlyRefused.map ?_ _
    unfold Subscription.assignFromGroup
    split
    · exact onlyRefused_ok _
    · exact onlyRefused_state _
  | requestReset parts strategy =>
    show OnlyRefused (s.requestReset parts strategy)
    unfold Subscription.requestReset
    split
    · exact onlyRefused_state _
    · exact onlyRefused_ok _
  | unsubscribe | updatePosition | updateHighWatermark | updateLastStableOffset =>
    exact onlyRefused_ok _
  | seek tp offset leaderEpoch => exact s.onlyRefused_adjustAssigned tp _
  | pause tp | resume tp => exact s.onlyRefused_adjustAssigned tp _

/-- A reset that names a partition that is not assigned is refused, whatever else it names. -/
theorem requestReset_of_not_assigned {s : Subscription} {parts : PartitionSet} {tp : TopicPartition}
    (htp : tp ∈ parts) (hs : tp ∉ s.assigned) (strategy : ResetStrategy) :
    ∃ tp' ∈ parts, tp' ∉ s.assigned ∧
      s.requestReset parts strategy = .error (.illegalState (.notAssigned tp')) := by
  have hsome : (parts.toList.find? fun tp => !s.isAssigned tp).isSome = true := by
    rw [List.find?_isSome]
    exact ⟨tp, htp, by simpa [mem_assigned] using hs⟩
  obtain ⟨tp', hf⟩ := Option.isSome_iff_exists.1 hsome
  have hn := List.find?_some hf
  refine ⟨tp', List.mem_of_find?_eq_some hf, by simpa [mem_assigned] using hn, ?_⟩
  rw [requestReset, hf]

end Subscription

namespace Processor

/-! ### Requests -/

/-- What a caller can ask about what is read and where it is read from. -/
inductive Request where
  | subscribeTopics (topics : SortedSet String)
  | subscribePattern (source : String)
  | refreshPattern
  | assign (time : Int64) (parts : PartitionSet)
  | seek (tp : TopicPartition) (offset : Int64) (leaderEpoch : Option Int)
  | resetOffset (parts : PartitionSet) (strategy : ResetStrategy)

/-- The event of a request. -/
def Request.event (t : Ticket) : Request → AppEvent
  | subscribeTopics topics => .subscribeTopics t topics
  | subscribePattern source => .subscribePattern t source
  | refreshPattern => .refreshPattern t
  | assign time parts => .assign t time parts
  | seek tp offset leaderEpoch => .seek t tp offset leaderEpoch
  | resetOffset parts strategy => .resetOffset t parts strategy

/-- The outcome that the processor gives to a request: what it leaves in a slot that nobody else knows
of. -/
def answer? (p : Processor) (r : Request) (t : Ticket) : Option (Outcome Value) :=
  let (session, i) := p.session.fresh
  ({ p with session }.process (r.event { t with slot := i })).session.slots.outcome? i

/-- What a request is about is the same in both. -/
structure Unchanged (p q : Processor) : Prop where
  subscription : q.subscription = p.subscription
  member : q.member = p.member
  evaluated : q.evaluated = p.evaluated

/-- The fault of an operation that is refused. -/
def faultOf {α : Type} : Except Fault α → Option Fault
  | .ok _ => none
  | .error f => some f

/-- What stands in the way of a request. -/
def obstacle? (p : Processor) : Request → Option Fault
  | .subscribeTopics topics =>
    if p.member.isNone then
      some (.missingCollaborator Missing.membership.name AppEvent.Kind.subscribeTopics.name)
    else faultOf (p.subscription.subscribe topics)
  | .subscribePattern source =>
    if p.member.isNone then
      some (.missingCollaborator Missing.membership.name AppEvent.Kind.subscribePattern.name)
    else faultOf (p.subscription.subscribePattern source)
  | .refreshPattern =>
    if p.session.script.hasMetadata then none
    else some (.missingCollaborator Missing.metadata.name AppEvent.Kind.refreshPattern.name)
  | .assign _ parts => faultOf (p.subscription.assignFromUser parts)
  | .seek tp offset leaderEpoch => faultOf (p.subscription.seek tp offset leaderEpoch)
  | .resetOffset parts strategy => faultOf (p.subscription.requestReset parts strategy)

/-- How the processor answers a request: it fails the ticket because of what stands in the way, and
leaves alone what the request is about; or it does what was asked, and the ticket succeeds. -/
inductive Replies (p : Processor) (t : Ticket) (obstacle? : Option Fault) (q : Processor) : Prop
  | refused {r : Processor} {f : Fault} (h : obstacle? = some f) (hr : p.Unchanged r)
    (hs : r.session.slots = p.session.slots) (hq : q = r.fail t f)
  | granted (r : Processor) (h : obstacle? = none) (hs : r.session.slots = p.session.slots)
    (hq : q = r.succeed t)

variable {p q : Processor} {t : Ticket} {f : Fault}

theorem Unchanged.refl (p : Processor) : p.Unchanged p := ⟨rfl, rfl, rfl⟩

theorem replies_completeWith (hu : p.Unchanged q) (hs : q.session.slots = p.session.slots)
    (t : Ticket) (r : Except Fault Subscription) :
    p.Replies t (faultOf r) (q.completeWith t r) := by
  cases r with
  | ok s => exact .granted (q.withSubscription fun _ => s) rfl hs rfl
  | error f => exact .refused rfl hu hs rfl

theorem slots_requestMetadata (p : Processor) : p.requestMetadata.session.slots = p.session.slots := by
  unfold requestMetadata
  split
  · rfl
  · rfl

theorem slots_evaluatePattern (p : Processor) :
    p.evaluatePattern.1.session.slots = p.session.slots := by
  unfold evaluatePattern
  simp only
  split
  · rfl
  · split
    · rfl
    · rfl

/-- The commit manager may be told of a request before it is looked at. -/
theorem updateCommitTimer_spec (p : Processor) (time : Int64) :
    p.Unchanged (p.updateCommitTimer time) ∧
      (p.updateCommitTimer time).session.slots = p.session.slots := by
  unfold updateCommitTimer
  split
  · exact ⟨⟨rfl, rfl, rfl⟩, rfl⟩
  · exact ⟨.refl p, rfl⟩

theorem faultOf_map {α β : Type} (r : Except Fault α) (g : α → β) : faultOf (r.map g) = faultOf r := by
  cases r with
  | ok a => rfl
  | error f => rfl

/-- Every request is refused because of what stands in its way, or done. -/
theorem replies_process (p : Processor) (r : Request) (t : Ticket) :
    p.Replies t (p.obstacle? r) (p.process (r.event t)) := by
  cases r with
  | subscribeTopics topics =>
    show p.Replies t _ (p.subscribeTopics t topics)
    simp only [subscribeTopics, obstacle?]
    split
    · exact .refused rfl (.refl p) rfl rfl
    · cases p.subscription.subscribe topics with
      | error f => exact .refused rfl (.refl p) rfl rfl
      | ok s =>
        refine .granted _ rfl ?_ rfl
        show (ite _ _ _ : Processor).session.slots = _
        split
        · exact slots_requestMetadata (p.withSubscription fun _ => s.1)
        · rfl
  | subscribePattern source =>
    show p.Replies t _ (p.subscribePattern t source)
    simp only [subscribePattern, obstacle?]
    split
    · exact .refused rfl (.refl p) rfl rfl
    · cases p.subscription.subscribePattern source with
      | error f => exact .refused rfl (.refl p) rfl rfl
      | ok s =>
        let q : Processor := { p.withSubscription fun _ => s with evaluated := none }
        exact .granted q.evaluatePattern.1.requestMetadata.subscriptionUpdated rfl
          ((slots_requestMetadata _).trans (slots_evaluatePattern q)) rfl
  | refreshPattern =>
    show p.Replies t _ (p.refreshPattern t)
    simp only [refreshPattern, obstacle?]
    split
    · refine .granted _ rfl ?_ rfl
      split
      · exact slots_evaluatePattern p
      · exact slots_evaluatePattern p
    · exact .refused rfl (.refl p) rfl rfl
  | assign time parts =>
    obtain ⟨hu, hs⟩ := p.updateCommitTimer_spec time
    have h := replies_completeWith hu hs t
      (((p.updateCommitTimer time).subscription.assignFromUser parts).map (·.1))
    rw [faultOf_map, hu.subscription] at h
    show p.Replies t _ (p.assign t time parts)
    unfold assign
    simp only [hu.subscription]
    exact h
  | seek tp offset leaderEpoch => exact replies_completeWith (.refl p) rfl t _
  | resetOffset parts strategy => exact replies_completeWith (.refl p) rfl t _

/-- A slot that is told an answer is settled, and nothing else happens to the slots. -/
theorem Replies.slots {ob : Option Fault} (h : p.Replies t ob q) :
    q.session.slots = p.session.slots.settle t.slot (ob.elim (.ok .done) .error) := by
  cases h with
  | @refused r f ho hr hs hq =>
    rw [ho, hq, ← hs]
    rfl
  | granted r ho hs hq =>
    rw [ho, hq, ← hs]
    rfl

theorem Replies.unchanged (h : p.Replies t (some f) q) : p.Unchanged q := by
  cases h with
  | refused ho hr hs hq =>
    rw [hq]
    exact ⟨hr.subscription, hr.member, hr.evaluated⟩
  | granted r ho => cases ho

/-- What stands in the way of a request does not depend on the slots. -/
theorem answer?_eq (p : Processor) (r : Request) (t : Ticket) :
    p.answer? r t = some ((p.obstacle? r).elim (.ok .done) .error) := by
  let q : Processor := { p with session := p.session.fresh.1 }
  let u : Ticket := { t with slot := p.session.fresh.2 }
  have ho : q.obstacle? r = p.obstacle? r := by
    cases r with
    | _ => rfl
  have hp : q.session.slots.isPending u.slot = true := by
    show (p.session.slots.cells.push {})[p.session.slots.cells.size]?.any _ = true
    rw [Array.getElem?_push_size]
    rfl
  show (q.process (r.event u)).session.slots.outcome? u.slot = _
  rw [(q.replies_process r u).slots, Slots.outcome?_settle_self hp, ho]

theorem faultOf_eq_some {α : Type} {r : Except Fault α} : faultOf r = some f ↔ r = .error f := by
  cases r with
  | ok a => simp [faultOf]
  | error f' => simp [faultOf]

/-- What stands in the way is that a collaborator is missing, or that the subscription refuses. -/
theorem kind_of_obstacle? {r : Request} (h : p.obstacle? r = some f) : f.kind ∈ Fault.refusals := by
  have hs (op : Subscription.Operation) (hf : faultOf (p.subscription.attempt op) = some f) :
      f.kind ∈ Fault.refusals :=
    p.subscription.onlyRefused_attempt op f (faultOf_eq_some.1 hf)
  have hmissing {c e : String} (hf : some (Fault.missingCollaborator c e) = some f) :
      f.kind ∈ Fault.refusals := by
    cases hf
    simp [Fault.kind, Fault.refusals]
  cases r with
  | subscribeTopics topics =>
    simp only [obstacle?] at h
    split at h
    · exact hmissing h
    · exact hs (.subscribe topics) (by rwa [← faultOf_map _ (·.1)] at h)
  | subscribePattern source =>
    simp only [obstacle?] at h
    split at h
    · exact hmissing h
    · exact hs (.subscribePattern source) h
  | refreshPattern =>
    simp only [obstacle?] at h
    split at h
    · cases h
    · exact hmissing h
  | assign time parts =>
    exact hs (.assignFromUser parts)
      ((faultOf_map (p.subscription.assignFromUser parts) (·.1)).trans h)
  | seek tp offset leaderEpoch => exact hs (.seek tp offset leaderEpoch) h
  | resetOffset parts strategy => exact hs (.requestReset parts strategy) h

/-- A request that is refused changes nothing. Every request has an answer, with which its ticket ends
unless that was complete before; if this is a fault, then whatever the request is about is as it was. In
the same way every operation of the subscription, done in place, is stopped before it has changed
anything, and a reset that names a partition that is not assigned is one of these. -/
theorem rejected_unchanged (p : Processor) (r : Request) (t : Ticket) :
    (∃ o, p.answer? r t = some o ∧
      (p.process (r.event t)).session.slots = p.session.slots.settle t.slot o ∧
      (p.session.slots.isPending t.slot = true →
        (p.process (r.event t)).session.slots.outcome? t.slot = some o) ∧
      ∀ f, o = .error f → f.kind ∈ Fault.refusals ∧ p.Unchanged (p.process (r.event t))) ∧
    (∀ (op : Subscription.Operation) (s s' : Subscription) (f : Fault),
      (Subscription.Edit.ofOperation op).on s = (.error f, s') ↔
        s.attempt op = .error f ∧ s' = s) ∧
    ∀ (s : Subscription) (parts : PartitionSet) (strategy : ResetStrategy) (tp : TopicPartition),
      tp ∈ parts → tp ∉ s.assigned → ∃ tp' ∈ parts, tp' ∉ s.assigned ∧
        (Subscription.Edit.requestReset parts strategy).on s =
          (.error (.illegalState (.notAssigned tp')), s) := by
  refine ⟨?_, fun op s s' f => Subscription.Edit.on_eq_error_iff op, fun s parts strategy tp htp hs => ?_⟩
  · have h := p.replies_process r t
    refine ⟨_, p.answer?_eq r t, h.slots, fun hp => ?_, fun f hf => ?_⟩
    · rw [h.slots, Slots.outcome?_settle_self hp]
    · cases ho : p.obstacle? r with
      | none =>
        rw [ho] at hf
        cases hf
      | some f' =>
        rw [ho] at hf h
        cases hf
        exact ⟨kind_of_obstacle? ho, h.unchanged⟩
  · obtain ⟨tp', hm, hn, he⟩ := Subscription.requestReset_of_not_assigned htp hs strategy
    exact ⟨tp', hm, hn, (Subscription.Edit.on_eq_error_iff (.requestReset parts strategy)).2 ⟨he, rfl⟩⟩

/-- A processor that reads a topic, of which one partition is assigned. -/
def reading : Processor where
  session := {
    slots := Slots.fresh {} |>.1
    subscription := {
      form := .autoTopics
      topics := SortedSet.ofList ["a"]
      assignment := SortedMap.singleton ⟨"a", 0⟩ { position := some 5 } } }

/-- Partitions of which one is not assigned. -/
def partly : PartitionSet := SortedSet.ofList [⟨"a", 0⟩, ⟨"b", 1⟩]

theorem rejected_unchanged_reading :
    let t : Ticket := ⟨"assign", 0, 0, 0⟩
    let q := reading.process (Request.event t (.assign 0 partly))
    let conflict : Fault := .subscriptionConflict "AUTO_TOPICS" "USER_ASSIGNED"
    reading.answer? (.assign 0 partly) t = some (.error conflict) ∧
      q.session.slots.outcome? 0 = some (.error conflict) ∧ reading.Unchanged q ∧
      ∃ tp' ∈ partly, tp' ∉ reading.subscription.assigned ∧
        (Subscription.Edit.requestReset partly .earliest).on reading.subscription =
          (.error (.illegalState (.notAssigned tp')), reading.subscription) := by
  intro t q conflict
  have ha : reading.answer? (.assign 0 partly) t = some (.error conflict) := by
    rw [answer?_eq]
    rfl
  obtain ⟨⟨o, ho, -, hp, hu⟩, -, hr⟩ := rejected_unchanged reading (.assign 0 partly) t
  obtain rfl := Option.some.inj (ha.symm.trans ho)
  exact ⟨ha, hp rfl, (hu conflict rfl).2,
    hr reading.subscription partly .earliest ⟨"b", 1⟩ (by decide) (by decide)⟩

end Processor

end GroupConsumer
