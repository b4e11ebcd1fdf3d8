import GroupConsumer.Proofs.Run.Groupless
import GroupConsumer.Proofs.Subscription.Position

/-!
# What becomes of a position

A partition that stays assigned keeps its position, unless the caller seeks or resets it, or a
lookup has found another one (`Steady.position?_undergo`). Committed offsets do not count as found:
they are taken over only where there is no position. What a reset has found does count, also when
the caller has sought in the meantime. So after a seek the position is where the caller put it or
where the last reset lookup that was applied has found it (`position?_of_sought`), and a lookup that
was under way before the seek undoes it (`seek_undone`).
-/

namespace GroupConsumer

/-- Where the cause has found a partition by a reset, if it has. -/
def Cause.found? (c : Cause) (tp : TopicPartition) : Option Int64 :=
  match c with
  | .deferred (.positions _, v) => (Processor.positionsOf v).get? tp
  | _ => none

namespace Moment

/-- Where the caller moves a partition that is assigned, if it does. -/
def sought? (y : Moment) (tp : TopicPartition) : Option Int64 :=
  match y.cause with
  | .received (.seek _ tp' offset epoch) =>
    if tp' = tp ∧ (y.before.subscription.seek tp' offset epoch).isOk then some offset else none
  | _ => none

/-- Whether the caller gives up the position of a partition. -/
def resets (y : Moment) (tp : TopicPartition) : Bool :=
  match y.cause with
  | .received (.resetOffset _ parts strategy) =>
    decide (tp ∈ parts) && (y.before.subscription.requestReset parts strategy).isOk
  | _ => false

theorem sought?_seek (p : Processor) (t : Ticket) (tp tp' : TopicPartition) (offset : Int64)
    (epoch : Option Int) :
    sought? ⟨p, .received (.seek t tp' offset epoch)⟩ tp =
      if tp' = tp ∧ (p.subscription.seek tp' offset epoch).isOk then some offset else none := rfl

theorem resets_resetOffset (p : Processor) (t : Ticket) (tp : TopicPartition)
    (parts : PartitionSet) (strategy : ResetStrategy) :
    resets ⟨p, .received (.resetOffset t parts strategy)⟩ tp =
      (decide (tp ∈ parts) && (p.subscription.requestReset parts strategy).isOk) := rfl

/-- The partition is left assigned, and the caller neither moves it nor gives up its position. -/
def Spares (y : Moment) (tp : TopicPartition) : Prop :=
  tp ∈ y.after.subscription.assigned ∧ y.sought? tp = none ∧ y.resets tp = false

instance (y : Moment) (tp : TopicPartition) : Decidable (y.Spares tp) :=
  inferInstanceAs (Decidable (_ ∧ _))

end Moment

/-- Where the last reset lookup that was applied has found a partition. -/
def lastFound (tp : TopicPartition) : List Moment → Option Int64
  | [] => none
  | y :: past =>
    match y.cause.found? tp with
    | some offset => some offset
    | none => lastFound tp past

namespace Move

variable {m m' : Membership} {t : Trigger} {f : Option Fault}

/-- Whatever a member does, a partition that stays assigned keeps its state. -/
theorem renews (h : Move m t m' f) :
    m.session.subscription.Renews m'.session.subscription := by
  have hsame {s : Session} (hs : s.subscription = m.session.subscription) :
      m.session.subscription.Renews s.subscription :=
    Subscription.renews_of_assignment (by rw [hs])
  cases h with
  | rest | noted | joined | settled | refused | completed => exact hsame rfl
  | identified _ _ hs | retargeted _ _ hs => exact hsame hs.subscription
  | fenced _ _ _ _ hs | departing _ _ _ _ hs => exact hsame hs.subscription
  | committing _ _ _ hs | revoking _ _ _ hs => exact hsame hs.subscription
  | finished _ hs | forgot _ hs | abandoned _ hs | departed _ _ hs =>
    rw [hs.subscription]
    exact Subscription.renews_unsubscribe _
  | vacated => exact Subscription.renews_unsubscribe _
  | dropped => exact Subscription.renews_released _
  | failed _ hs =>
    rw [hs.subscription]
    exact Subscription.renews_released _
  | assigning _ _ _ _ _ hs =>
    rw [hs.subscription]
    exact Subscription.renews_reassign _ _
  | applied => exact Subscription.renews_reassign _ _

end Move

namespace Processor

theorem subscription_drainOutcomes (p : Processor) :
    p.drainOutcomes.1.subscription = p.subscription := by
  unfold drainOutcomes
  split <;> rfl

theorem assignment_evaluatePattern (p : Processor) :
    p.evaluatePattern.1.subscription.assignment = p.subscription.assignment := by
  unfold evaluatePattern
  simp only
  split
  · rfl
  · split
    · rename_i s changed hr
      exact Subscription.assignment_subscribeMatched hr
    · rfl

/-! ### Events -/

variable {p : Processor} {c : Cause} {e : AppEvent} {tp : TopicPartition} {o : Int64}

theorem renews_subscribeTopics (p : Processor) (t : Ticket) (topics : SortedSet String) :
    p.subscription.Renews (p.subscribeTopics t topics).subscription := by
  refine Subscription.renews_of_assignment ?_
  unfold subscribeTopics
  split
  · rfl
  · split
    · rename_i s changed hs
      have ha : s.assignment = p.subscription.assignment := Subscription.assignment_subscribe hs
      simp only
      split
      · show (p.withSubscription fun _ => s).requestMetadata.subscription.assignment = _
        rw [(handles_requestMetadata _ []).subscription]
        exact ha
      · exact ha
    · rfl

theorem renews_subscribePattern (p : Processor) (t : Ticket) (source : String) :
    p.subscription.Renews (p.subscribePattern t source).subscription := by
  refine Subscription.renews_of_assignment ?_
  unfold subscribePattern
  split
  · rfl
  · split
    · rfl
    · rename_i s hs
      let q : Processor := { p.withSubscription fun _ => s with evaluated := none }
      show q.evaluatePattern.1.requestMetadata.subscription.assignment = _
      rw [(handles_requestMetadata _ []).subscription, assignment_evaluatePattern]
      exact Subscription.assignment_subscribePattern hs

theorem renews_refreshPattern (p : Processor) (t : Ticket) :
    p.subscription.Renews (p.refreshPattern t).subscription := by
  refine Subscription.renews_of_assignment ?_
  unfold refreshPattern
  split
  · simp only
    split
    · exact assignment_evaluatePattern p
    · exact assignment_evaluatePattern p
  · rfl

theorem renews_assign (p : Processor) (t : Ticket) (time : Int64) (parts : PartitionSet) :
    p.subscription.Renews (p.assign t time parts).subscription := by
  have hu := (handles_updateCommitTimer p [] time).subscription
  unfold assign
  simp only [hu]
  cases hr : p.subscription.assignFromUser parts with
  | error f =>
    refine Subscription.renews_of_assignment ?_
    show (p.updateCommitTimer time).subscription.assignment = _
    rw [hu]
  | ok r => exact Subscription.renews_assignFromUser hr

/-- A trigger leaves the state of a partition that stays assigned alone. -/
theorem Steady.renews_of_trigger? (hp : p.Steady) {t : Trigger} (ht : c.trigger? p = some t)
    (hnone : p.member = none → p.subscription.Renews (p.undergo c).subscription) :
    p.subscription.Renews (p.undergo c).subscription := by
  cases hm : p.member with
  | none => exact hnone hm
  | some x =>
    have hturn := (hp x hm).turn c
    generalize p.undergo c = q at hturn
    cases hturn with
    | still hn | noticed hn | picked hn => cases hn.symm.trans ht
    | @moved t y m f _ _ hmove _ hs =>
      rw [subscription, subscription, hs.subscription]
      exact hmove.renews

/-- What is received leaves the state of a partition that stays assigned alone, unless it is a seek
or a reset. -/
theorem Steady.renews_receive (hp : p.Steady) (hseek : e.kind ≠ .seek)
    (hreset : e.kind ≠ .resetOffset) : p.subscription.Renews (p.receive e).subscription := by
  have hsame {q : Processor} (hq : q.subscription = p.subscription) :
      p.subscription.Renews q.subscription :=
    Subscription.renews_of_assignment (by rw [hq])
  cases e with
  | resetOffset => exact absurd rfl hreset
  | subscribeTopics t topics => exact renews_subscribeTopics p t topics
  | subscribePattern t source => exact renews_subscribePattern p t source
  | refreshPattern t => exact renews_refreshPattern p t
  | unsubscribe t =>
    refine hp.renews_of_trigger? (c := .received (.unsubscribe t)) rfl fun hm => ?_
    show p.subscription.Renews (p.unsubscribe t).subscription
    rw [unsubscribe_of_none hm]
    exact Subscription.renews_unsubscribe _
  | assign t time parts => exact renews_assign p t time parts
  | seek => exact absurd rfl hseek
  | leaveOnClose t =>
    refine hp.renews_of_trigger? (c := .received (.leaveOnClose t)) rfl fun hm => ?_
    show p.subscription.Renews (p.leaveOnClose t).subscription
    rw [leaveOnClose_of_none hm]
    exact hsame rfl
  | _ => exact hsame (handles_receive p rfl).subscription

/-! ### Seeks and resets -/

/-- A seek that does not move the partition leaves its state alone. -/
theorem get?_seek {tp' : TopicPartition} {offset : Int64} {epoch : Option Int} {t' : Ticket}
    (hs : Moment.sought? ⟨p, .received (.seek t' tp' offset epoch)⟩ tp = none) (t : Ticket) :
    (p.completeWith t (p.subscription.seek tp' offset epoch)).subscription.assignment.get? tp =
      p.subscription.assignment.get? tp := by
  cases hk : p.subscription.seek tp' offset epoch with
  | error f => rfl
  | ok s =>
    have hne : tp ≠ tp' := by
      rintro rfl
      rw [Moment.sought?_seek, hk, if_pos ⟨rfl, rfl⟩] at hs
      cases hs
    unfold Subscription.seek Subscription.adjustAssigned at hk
    split at hk
    · cases hk
      exact (Subscription.get?_adjust _ tp').trans (if_neg hne)
    · cases hk

/-- A reset that does not give up the position of the partition leaves its state alone. -/
theorem get?_resetOffset {parts : PartitionSet} {strategy : ResetStrategy} {t' : Ticket}
    (hr : Moment.resets ⟨p, .received (.resetOffset t' parts strategy)⟩ tp = false) (t : Ticket) :
    (p.completeWith t (p.subscription.requestReset parts strategy)).subscription.assignment.get? tp =
      p.subscription.assignment.get? tp := by
  cases hk : p.subscription.requestReset parts strategy with
  | error f => rfl
  | ok s =>
    have hn : tp ∉ parts := by
      intro hm
      rw [Moment.resets_resetOffset, hk, decide_eq_true hm] at hr
      cases hr
    refine (Subscription.get?_requestReset hk).trans ?_
    simp [hn]

/-! ### All causes -/

/-- Whatever happens leaves the state of a partition that stays assigned alone, and a new one starts
with none, unless the caller names partitions or what a lookup has left is applied. -/
theorem Steady.renews_undergo (hp : p.Steady)
    (hk : ∀ e, c = .received e → e.kind ≠ .seek ∧ e.kind ≠ .resetOffset)
    (hc : ∀ u, c ≠ .deferred u) : p.subscription.Renews (p.undergo c).subscription := by
  have hsame (hs : (p.undergo c).subscription = p.subscription) :
      p.subscription.Renews (p.undergo c).subscription :=
    Subscription.renews_of_assignment (by rw [hs])
  cases c with
  | outside o => exact hsame (by cases o <;> rfl)
  | received e => exact hp.renews_receive (hk e rfl).1 (hk e rfl).2
  | polled | heard | advanced =>
    refine hp.renews_of_trigger? rfl fun hm => ?_
    rw [Processor.undergo, onMember_of_none hm]
    exact Subscription.renews_of_assignment rfl
  | pollDone time gate => exact hsame (handles_updateCommitTimer p [] time).subscription
  | lookups => exact hsame rfl
  | deferred u => exact absurd rfl (hc u)
  | drained => exact hsame (subscription_drainOutcomes p)
  | told => exact hsame (publishSnapshot_eq p).2.1
  | reported fs => exact hsame (Session.subscription_report _ _)

/-- A partition that stays assigned and that the caller leaves alone keeps its state, unless what a
lookup has left is applied. -/
theorem Steady.get?_undergo (hp : p.Steady) (ha : tp ∈ p.subscription.assigned)
    (hs : Moment.Spares ⟨p, c⟩ tp) (hc : ∀ u, c ≠ .deferred u) :
    (p.undergo c).subscription.assignment.get? tp = p.subscription.assignment.get? tp := by
  obtain ⟨hq, hseek, hreset⟩ := hs
  by_cases hk : ∃ e, c = .received e ∧ (e.kind = .seek ∨ e.kind = .resetOffset)
  · obtain ⟨e, rfl, hk⟩ := hk
    cases e with
    | seek t tp' offset epoch => exact get?_seek hseek t
    | resetOffset t parts strategy => exact get?_resetOffset hreset t
    | _ => simp [AppEvent.kind] at hk
  · refine (hp.renews_undergo (fun e he => ⟨fun h => ?_, fun h => ?_⟩) hc).retains tp ha hq
    · exact hk ⟨e, he, Or.inl h⟩
    · exact hk ⟨e, he, Or.inr h⟩

/-- A partition that stays assigned and that the caller leaves alone keeps its position, unless a
reset has found it elsewhere. -/
theorem Steady.position?_undergo (hp : p.Steady) (ha : tp ∈ p.subscription.assigned)
    (hs : Moment.Spares ⟨p, c⟩ tp) (ho : p.subscription.position? tp = some o) :
    (p.undergo c).subscription.position? tp = some ((c.found? tp).getD o) := by
  cases c with
  | deferred update =>
    obtain ⟨d, v⟩ := update
    cases d with
    | positions t =>
      show (takePositions p.subscription (positionsOf v)).position? tp = _
      rw [Subscription.position?_takePositions ha, ho]
      show Option.or ((positionsOf v).get? tp) (some o) = some (((positionsOf v).get? tp).getD o)
      cases (positionsOf v).get? tp <;> rfl
    | committed t =>
      show ((p.withSubscription (takeCommitted · (offsetsOf v))).resetPositions t).subscription.position?
        tp = _
      rw [(handles_resetPositions _ t).subscription]
      refine (Subscription.position?_takeCommitted ha _).trans ?_
      rw [ho]
      rfl
    | endOffsets isolation => exact (Subscription.position?_takeEnds isolation _).trans ho
  | _ =>
    have hst := hp.get?_undergo ha hs fun u hu => by cases hu
    rw [Subscription.position?, hst]
    exact ho

end Processor

/-! ### Runs -/

/-- As long as a partition stays assigned and the caller leaves it alone, its position is where it
was, or where the last reset lookup has found it. -/
theorem Chronicle.Lived.position? {p : Processor} {k : Chronicle} (h : Lived p k) (hp : p.Steady)
    {later earlier : List Moment} {y : Moment} {tp : TopicPartition} {o : Int64}
    (hk : k.past = later ++ y :: earlier) (hy : y.after.subscription.position? tp = some o)
    (ha : tp ∈ y.after.subscription.assigned) (hl : ∀ z ∈ later, z.Spares tp) :
    tp ∈ k.present.subscription.assigned ∧
      k.present.subscription.position? tp = some ((lastFound tp later).getD o) := by
  induction h generalizing later with
  | start => cases later <;> cases hk
  | @undergo k h c ih =>
    cases later with
    | nil =>
      cases hk
      exact ⟨ha, hy⟩
    | cons z later =>
      injection hk with hz hk
      subst hz
      have hs := hl _ List.mem_cons_self
      obtain ⟨hb, ho⟩ := ih hk fun w hw => hl w (List.mem_cons_of_mem _ hw)
      refine ⟨hs.1, ((h.steady hp).position?_undergo hb hs ho).trans ?_⟩
      rw [lastFound]
      cases c.found? tp <;> rfl

/-- A seek that succeeds puts the position where the caller wants it. -/
theorem Moment.position?_of_sought? {y : Moment} {tp : TopicPartition} {offset : Int64}
    (h : y.sought? tp = some offset) :
    tp ∈ y.after.subscription.assigned ∧ y.after.subscription.position? tp = some offset := by
  obtain ⟨p, c⟩ := y
  unfold sought? at h
  split at h
  · rename_i t tp' offset' epoch hc
    obtain rfl : c = .received (.seek t tp' offset' epoch) := hc
    split at h
    · rename_i hs
      obtain ⟨rfl, hok⟩ := hs
      cases h
      have ha : tp' ∈ p.subscription.assigned := by
        by_cases hm : p.subscription.isAssigned tp' = true
        · exact Subscription.mem_assigned.2 hm
        · rw [Subscription.seek, Subscription.adjustAssigned, if_neg hm] at hok
          cases hok
      show tp' ∈ (p.completeWith t (p.subscription.seek tp' offset epoch)).subscription.assigned ∧
        (p.completeWith t (p.subscription.seek tp' offset epoch)).subscription.position? tp' = _
      rw [Subscription.seek_of_mem ha]
      refine ⟨?_, Subscription.position?_set ha fun _ => rfl⟩
      show tp' ∈ (p.subscription.adjust tp' _).assigned
      rw [(Subscription.alike_adjust _ _ _).assigned]
      exact ha
    · cases h
  · cases h

namespace Setup

/-- After a seek the position is where the caller put it, until the caller seeks or resets the
partition again or it is no longer assigned. Only a reset lookup moves it, and it does so whenever it
is applied: no committed offset does, nor anything else. -/
theorem position?_of_sought (u : Setup) (inGroup : Bool) (as : List Action)
    {later earlier : List Moment} {y : Moment} {tp : TopicPartition} {offset : Int64}
    (hk : (u.record inGroup as).past = later ++ y :: earlier) (hy : y.sought? tp = some offset)
    (hl : ∀ z ∈ later, z.Spares tp) :
    (u.record inGroup as).present.subscription.position? tp =
      some ((lastFound tp later).getD offset) := by
  obtain ⟨ha, ho⟩ := Moment.position?_of_sought? hy
  exact ((u.lived_record inGroup as).position? (u.steady inGroup) hk ho ha hl).2

/-- A consumer with one request manager. -/
def managedBy (m : Manager) : Setup := { script := { managers := [m] } }

/-- The partition of the consumer. -/
def soughtPartition : TopicPartition := { topic := "t", number := 0 }

/-- The caller lets the position of its partition be looked up, and seeks before the lookup is over. -/
def soughtSteps : List Action :=
  [.outside .fresh, .process (.assign (ticketAt 0) 0 (.ofList [soughtPartition])),
    .outside .fresh, .process (.checkPositions (ticketAt 1)),
    .outside .fresh, .process (.seek (ticketAt 3) soughtPartition 5 none)]

/-- The lookup is over, and the loop hears of it. -/
def lateReply (v : Value) : List Action := [.outside (.settle 2 (.ok v)), .progress 0]

/-- A committed offset that arrives late does not undo the seek. -/
theorem position?_of_late_committed :
    ((managedBy .commit).record false (soughtSteps ++
      lateReply (.offsets (.ofList [(soughtPartition, ⟨7, none, ""⟩)])))).present.subscription.position?
        soughtPartition = some 5 := by
  let k := (managedBy .commit).record false (soughtSteps ++
    lateReply (.offsets (.ofList [(soughtPartition, ⟨7, none, ""⟩)])))
  have hs : k.past[6]?.map (·.sought? soughtPartition) = some (some 5) := by decide +kernel
  obtain ⟨y, hy, hs⟩ := Option.map_eq_some_iff.1 hs
  have hl : ∀ z ∈ k.past.take 6, z.Spares soughtPartition := by decide +kernel
  have hf : lastFound soughtPartition (k.past.take 6) = none := by decide +kernel
  have h := position?_of_sought (managedBy .commit) false _ (past_eq_of_getElem? hy) hs hl
  rw [hf] at h
  exact h

/-- What a reset has found late undoes the seek, although the caller has not touched the partition
since. -/
theorem seek_undone :
    let k := (managedBy .offsets).record false (soughtSteps ++
      lateReply (.positions (.ofList [(soughtPartition, 7)])))
    ∃ later y earlier, k.past = later ++ y :: earlier ∧ y.sought? soughtPartition = some 5 ∧
      (∀ z ∈ later, z.Spares soughtPartition) ∧
      k.present.subscription.position? soughtPartition = some 7 := by
  intro k
  have hs : k.past[6]?.map (·.sought? soughtPartition) = some (some 5) := by decide +kernel
  obtain ⟨y, hy, hs⟩ := Option.map_eq_some_iff.1 hs
  exact ⟨_, y, _, past_eq_of_getElem? hy, hs, by decide +kernel, by decide +kernel⟩

end Setup

end GroupConsumer
