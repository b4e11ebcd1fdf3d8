import GroupConsumer.Proofs.Run.Ready
import GroupConsumer.Proofs.Session.Carries

/-!
# No event is left dangling

Once an event has been processed, somebody sees to its ticket (`Attends`): the ticket is complete, a
listener that completes it or keeps a value for it waits on the pending answer of a collaborator, it is
linked to the leave that is going on, or a value has been kept for it that the next round of background
progress applies. No action takes this away.

Positions take two lookups at most, the committed offsets and then a reset. So if the event is no
request to leave, two rounds of background progress complete its ticket, provided that no answer is
outstanding when they start (`attends`).
-/

namespace GroupConsumer

/-- The lookups that are made for a ticket. -/
def Ticket.lookups (t : Ticket) : List Deferral := [.positions t, .committed t]

theorem isDone_of_met {s : Slots Value Deferral} {j : SlotId} (h : s.Met (fun _ => False) j) :
    s.isDone j = true := by
  obtain h | ⟨d, v, hd, -⟩ := h
  · exact h
  · cases hd

/-- A slot that is linked to a leave stays so, or it is completed when the leave ends. -/
theorem Membership.Tends.hooks {m n : Membership} {i j : SlotId} (h : m.Tends n)
    (hi : m.member.leaveSlot = some i) (hj : j < m.session.slots.cells.size)
    (hh : m.session.slots.Hooks (fun _ => False) i j) :
    (n.member.leaveSlot = some i ∧ n.session.slots.Hooks (fun _ => False) i j) ∨
      n.session.slots.isDone j = true := by
  obtain h | ⟨k, r, hk, hn⟩ := h
  · obtain hh | hm := h.steps.hooks hj hh
    · exact Or.inl ⟨h.leaveSlot.trans hi, hh⟩
    · exact Or.inr (isDone_of_met hm)
  · -- The leave ends at `k`, with the completion of the slot that `j` is linked to.
    have hend : (k.completeLeave r).session.slots.isDone j = true := by
      obtain hh | hm := hk.steps.hooks hj hh
      · have hc : k.completeLeave r =
            ⟨{ k.member with leaveSlot := none }, k.session.completeUnit i r⟩ := by
          rw [completeLeave, hk.leaveSlot.trans hi]
        rw [hc]
        exact isDone_of_met (hh.settle_self (Nat.lt_of_lt_of_le hj hk.steps.size) _)
      · have hkeeps := (tends_completeLeave k r).proceeds fun _ => False
        exact isDone_of_met (hkeeps.met hm)
    exact Or.inr (hn.slots.keeps.isDone hend)

namespace Processor

/-- A listener that completes the ticket, or keeps a value for it, waits on the pending answer of a
collaborator. -/
def Awaits (p : Processor) (t : Ticket) : Prop :=
  ∃ f ∈ p.session.futures.toList, p.session.slots.Hooks (· ∈ t.lookups) f.2 t.slot

/-- The slot is linked to the pending leave. -/
def LeavesWith (p : Processor) (j : SlotId) : Prop :=
  ∃ l, p.leaveSlot? = some l ∧ p.session.slots.Hooks (fun _ => False) l j

/-- Somebody sees to the ticket. -/
inductive Attends (p : Processor) (t : Ticket) : Prop
  | complete (h : p.session.slots.isDone t.slot = true)
  | awaiting (h : p.Awaits t)
  | leaving (h : p.LeavesWith t.slot)
  | kept {d : Deferral} {v : Value} (hd : d ∈ t.lookups) (h : (d, v) ∈ p.session.deferred)

variable {p q : Processor} {c : Cause} {t : Ticket} {D : Deferral → Prop} {j : SlotId}

theorem attends_of_carries (h : p.session.Carries (· ∈ t.lookups) t.slot) : p.Attends t := by
  obtain (h | ⟨d, v, hd, hn⟩) | h := h
  · exact .complete h
  · exact .kept hd (Session.mem_deferred.2 hn)
  · exact .awaiting h

/-! ### What is processed is attended to -/

section Events

variable (hf : p.session.Filed) (hs : t.slot < p.session.slots.cells.size)

include hs

theorem carries_complete (o : Outcome Value) : (p.complete t o).session.Carries D t.slot :=
  Session.carries_complete hs D o

include hf

theorem carries_delegate (m : Method) (call : Nat → Call) :
    (p.delegate t m call).session.Carries D t.slot :=
  Session.carries_ask hf hs m call (l := .relay t.slot id) rfl

theorem carries_askFor {d : Deferral} (hd : D d) (m : Method) (call : Nat → Call) :
    (p.askFor d (some t.slot) m call).session.Carries D t.slot :=
  Session.carries_ask hf hs m call (l := .hold d (some t.slot)) ⟨hd, rfl⟩

theorem carries_commit (offsets : Option OffsetMap) (kind : AppEvent.Kind) (m : Method)
    (call : OffsetMap → Nat → Call) :
    (p.commit t offsets kind m call).session.Carries D t.slot := by
  unfold commit
  split
  · simp only
    split
    · exact carries_complete hs _
    · exact carries_delegate hf hs _ _
  · exact carries_complete hs _

theorem carries_commitAsync (offsets : Option OffsetMap) :
    (p.commitAsync t offsets).session.Carries D t.slot :=
  carries_commit hf hs offsets .commitAsync .commitAsync fun o i => .commitAsync o i

theorem carries_commitSync (offsets : Option OffsetMap) :
    (p.commitSync t offsets).session.Carries D t.slot :=
  carries_commit hf hs offsets .commitSync .commitSync fun o i => .commitSync o t.deadline i

theorem carries_fetchCommitted (parts : PartitionSet) :
    (p.fetchCommitted t parts).session.Carries D t.slot := by
  unfold fetchCommitted
  split
  · split
    · exact carries_complete hs _
    · exact carries_delegate hf hs _ _
  · exact carries_complete hs _

theorem carries_listOffsets (times : PositionMap) (requireTimes : Bool) :
    (p.listOffsets t times requireTimes).session.Carries D t.slot := by
  unfold listOffsets
  split
  · split
    · exact carries_complete hs _
    · exact carries_delegate hf hs _ _
  · exact carries_complete hs _

theorem carries_createFetches : (p.createFetches t).session.Carries D t.slot := by
  unfold createFetches
  split
  · exact carries_delegate hf hs _ _
  · exact carries_complete hs _

theorem carries_resetPositions : (p.resetPositions t).session.Carries (· = .positions t) t.slot := by
  obtain ⟨o, he⟩ | ⟨resets, -, he⟩ := resetPositions_cases p t
  · rw [he]
    exact carries_complete hs o
  · rw [he]
    exact carries_askFor (D := (· = .positions t)) hf hs rfl _ _

theorem carries_checkPositions :
    (p.checkPositions t).session.Carries (· ∈ t.lookups) t.slot := by
  obtain ⟨o, he⟩ | he | he := checkPositions_cases p t
  · rw [he]
    exact carries_complete hs o
  · rw [he]
    exact carries_askFor (d := .committed t) hf hs (by simp [Ticket.lookups]) _ _
  · rw [he]
    exact (carries_resetPositions hf hs).mono fun d hd => by simp [Ticket.lookups, hd]

omit hf

theorem carries_completeWith (r : Except Fault Subscription) :
    (p.completeWith t r).session.Carries D t.slot := by
  cases r with
  | ok s => exact carries_complete (p := p.withSubscription fun _ => s) hs _
  | error f => exact carries_complete hs _

/-- A ticket that succeeds after some elementary steps. -/
theorem Proceeds.carries_succeed {E : List Deferral} (h : p.Proceeds [t.slot] E q) :
    (q.succeed t).session.Carries D t.slot :=
  carries_complete (Nat.lt_of_lt_of_le hs (Session.Proceeds.size h)) _

theorem carries_assign (time : Int64) (parts : PartitionSet) :
    (p.assign t time parts).session.Carries D t.slot := by
  have hsize := Session.Proceeds.size (handles_updateCommitTimer p [] time).proceeds
  exact carries_completeWith (Nat.lt_of_lt_of_le hs hsize) _

theorem carries_currentLag (tp : TopicPartition) (isolation : IsolationLevel) :
    (p.currentLag t tp isolation).session.Carries D t.slot := by
  unfold currentLag
  simp only
  split
  · have hq : Handles [t.slot] [.endOffsets isolation] p (p.askFor (.endOffsets isolation) none
        .lookUpOffsets (.lookUpOffsets (SortedMap.singleton tp latestTimestamp) false ·)) :=
      .askedFor .rest (by simp [Listener.aimed, Deferral.slot?]) (by simp) _ _
    exact carries_complete (Nat.lt_of_lt_of_le hs (Session.Proceeds.size hq.proceeds)) _
  · exact carries_complete hs _

theorem carries_subscribeTopics (topics : SortedSet String) :
    (p.subscribeTopics t topics).session.Carries D t.slot := by
  unfold subscribeTopics
  split
  · exact carries_complete hs _
  · split
    · rename_i s changed _
      let q := p.withSubscription fun _ => s
      have hq : p.Proceeds [t.slot] [] q := Session.proceeds_of_slots _ _ rfl rfl
      simp only
      split
      · exact Proceeds.carries_succeed hs (hq.trans (proceeds_requestMetadata q _ _))
      · exact Proceeds.carries_succeed hs hq
    · exact carries_complete hs _

theorem carries_subscribePattern (source : String) :
    (p.subscribePattern t source).session.Carries D t.slot := by
  unfold subscribePattern
  split
  · exact carries_complete hs _
  · split
    · exact carries_complete hs _
    · rename_i s _
      let q : Processor := { p.withSubscription fun _ => s with evaluated := none }
      have hq : p.Proceeds [t.slot] [] q := Session.proceeds_of_slots _ _ rfl rfl
      exact Proceeds.carries_succeed hs ((hq.trans (proceeds_evaluatePattern q _ _)).trans
        (proceeds_requestMetadata _ _ _))

theorem carries_refreshPattern : (p.refreshPattern t).session.Carries D t.slot := by
  unfold refreshPattern
  split
  · simp only
    split
    · exact Proceeds.carries_succeed (q := p.evaluatePattern.1.subscriptionUpdated) hs
        (proceeds_evaluatePattern p [] _)
    · exact Proceeds.carries_succeed hs (proceeds_evaluatePattern p [] _)
  · exact carries_complete hs _

end Events

/-- An event that does not ask the member to leave is attended to as soon as it is received. -/
theorem carries_receive {e : AppEvent} (hf : p.session.Filed)
    (hs : t.slot < p.session.slots.cells.size) (ht : e.ticket? = some t) (he : e.isLeave = false) :
    (p.receive e).session.Carries (· ∈ t.lookups) t.slot := by
  cases e with
  | poll | commitOnClose | stopCoordinatorOnClose | callbackDone | tasksCallbackDone => cases ht
  | unsubscribe | leaveOnClose => cases he
  | commitAsync t' offsets =>
    obtain rfl := Option.some.inj ht
    exact carries_commitAsync hf hs offsets
  | commitSync t' offsets =>
    obtain rfl := Option.some.inj ht
    exact carries_commitSync hf hs offsets
  | fetchCommitted t' parts =>
    obtain rfl := Option.some.inj ht
    exact carries_fetchCommitted hf hs parts
  | listOffsets t' times requireTimes =>
    obtain rfl := Option.some.inj ht
    exact carries_listOffsets hf hs times requireTimes
  | checkPositions t' =>
    obtain rfl := Option.some.inj ht
    exact carries_checkPositions hf hs
  | resetOffset | seek =>
    obtain rfl := Option.some.inj ht
    exact carries_completeWith hs _
  | subscribeTopics t' topics =>
    obtain rfl := Option.some.inj ht
    exact carries_subscribeTopics hs topics
  | subscribePattern t' source =>
    obtain rfl := Option.some.inj ht
    exact carries_subscribePattern hs source
  | refreshPattern t' =>
    obtain rfl := Option.some.inj ht
    exact carries_refreshPattern hs
  | assign t' time parts =>
    obtain rfl := Option.some.inj ht
    exact carries_assign hs time parts
  | currentLag t' tp isolation =>
    obtain rfl := Option.some.inj ht
    exact carries_currentLag hs tp isolation
  | createFetches t' =>
    obtain rfl := Option.some.inj ht
    exact carries_createFetches hf hs

/-! ### Requests to leave -/

/-- The slot is complete, or it is linked to the pending leave. -/
def Leaves (p : Processor) (j : SlotId) : Prop :=
  p.session.slots.isDone j = true ∨ p.LeavesWith j

/-- A request to leave sets the member in motion. -/
theorem trigger?_of_isLeave (p : Processor) {e : AppEvent} (he : e.isLeave = true) :
    ∃ g, Cause.trigger? p (.received e) = some g := by
  cases e with
  | unsubscribe | leaveOnClose => exact ⟨_, rfl⟩
  | _ => cases he

/-- A member that is asked to leave links the request to its leave, unless there is nothing to leave. -/
theorem Motion.leaves {e : AppEvent} (h : Motion p (.received e) q) (hp : p.Ready t.slot)
    (ht : e.ticket? = some t) : q.Leaves t.slot := by
  cases h with
  | absent hc | tended hc => exact absurd rfl (hc e)
  | @answered _ t' s hc ht' _ _ hs hq =>
    cases hc
    obtain rfl := Option.some.inj (ht.symm.trans ht')
    left
    rw [hq]
    exact Slots.isDone_settle (Nat.lt_of_lt_of_le hp.slot hs.size) _
  | @left _ t' m n i hc ht' hs hml hd hq hqm =>
    cases hc
    obtain rfl := Option.some.inj (ht.symm.trans ht')
    have hm : ∀ l, m.member.leaveSlot = some l → l < m.session.slots.cells.size := by
      rw [hs, hml]
      exact hp.leave
    have hi := (hd.slot_lt hm).1
    have hj : t.slot < n.session.slots.cells.size := by
      have hsize := hd.proceeds.size
      rw [hs] at hsize
      exact Nat.lt_of_lt_of_le hp.slot hsize
    have hlinked : q.session.slots.Hooks (fun _ => False) i t.slot ∨
        q.session.slots.Met (fun _ => False) t.slot := by
      rw [hq]
      exact Slots.hooks_or_met_listen (l := .relay t.slot id) hi hj rfl
    obtain hh | hmet := hlinked
    · have hql : q.leaveSlot? = n.member.leaveSlot := leaveSlot?_eq hqm
      cases hd with
      | atOnce _ _ _ done =>
        -- Nobody waits on a slot that is complete.
        have hdone : q.session.slots.isDone i = true := by
          rw [hq]
          exact (Session.worksOn_chain n.session i t.slot).keeps.isDone done
        rw [hh.not_isDone] at hdone
        cases hdone
      | joined before same => exact Or.inr ⟨i, hql.trans (same ▸ before), hh⟩
      | begun _ after => exact Or.inr ⟨i, hql.trans after, hh⟩
    · exact Or.inl (isDone_of_met hmet)


/-- A slot that is linked to the leave stays so until it is complete. -/
theorem kept_leaves (j : SlotId) : Kept j (·.Leaves j) := by
  intro p c hp hl h
  have hw := hp.steady.worksOn_undergo c
  obtain hd | ⟨l, hpl, hh⟩ := h
  · exact Or.inl (hw.keeps.isDone hd)
  cases hc : c.trigger? p with
  | none =>
    obtain hh | hm := (hp.steady.proceeds hl).hooks hp.slot hh
    · exact Or.inr ⟨l, (hp.steady.leaveSlot?_undergo hc).trans hpl, hh⟩
    · exact Or.inl (isDone_of_met hm)
  | some g =>
    have hmotion := hp.steady.motion hc
    generalize p.undergo c = q at hmotion
    cases hmotion with
    | absent _ _ hq =>
      subst hq
      exact Or.inr ⟨l, hpl, hh⟩
    | answered _ _ hm =>
      rw [leaveSlot?_of_none hm] at hpl
      cases hpl
    | @tended x m _ hm ht hq =>
      subst hq
      rw [leaveSlot?_eq hm] at hpl
      obtain ⟨hl, hh⟩ | hd := ht.hooks hpl hp.slot hh
      · exact Or.inr ⟨l, hl, hh⟩
      · exact Or.inl hd
    | @left e t m n i _ _ hs hml hd hq hqm =>
      have hbefore : m.member.leaveSlot = some l := hml.trans hpl
      cases hd with
      | atOnce before | begun before => cases before.symm.trans hbefore
      | joined before same =>
        subst same
        have hlinked : q.session.slots.Hooks (fun _ => False) l j ∨
            q.session.slots.Met (fun _ => False) j := by
          rw [hq, hs]
          exact hh.listen hp.slot i _
        obtain hh | hm := hlinked
        · exact Or.inr ⟨l, (leaveSlot?_eq hqm).trans hbefore, hh⟩
        · exact Or.inl (isDone_of_met hm)

/-! ### Rounds of background progress -/

theorem kept_carries (D : Deferral → Prop) (j : SlotId) : Kept j (·.session.Carries D j) :=
  fun _ _ hp hl h => (hp.steady.proceeds hl).carries hp.slot h

/-- If every answer of a collaborator is there, no ticket awaits one. -/
theorem not_awaits_of_done (h : ∀ f ∈ p.session.futures.toList, p.session.slots.isDone f.2 = true) :
    ¬ p.Awaits t := by
  rintro ⟨f, hf, hh⟩
  have hd := h f hf
  rw [hh.not_isDone] at hd
  cases hd

/-- Applying a value completes the ticket that it was kept for, or the reset is looked up. -/
theorem Ready.carries_deferred (hp : p.Ready t.slot) {d : Deferral} (hd : d ∈ t.lookups) (v : Value) :
    (p.undergo (.deferred (d, v))).session.Carries (· = .positions t) t.slot := by
  obtain rfl | rfl : d = .positions t ∨ d = .committed t := by
    simpa [Ticket.lookups] using hd
  · exact carries_complete (p := p.withSubscription (takePositions · (positionsOf v))) hp.slot _
  · exact carries_resetPositions (p := p.withSubscription (takeCommitted · (offsetsOf v)))
      hp.filed hp.slot

/-- Applying positions that were found completes the ticket. -/
theorem Ready.isDone_deferred (hp : p.Ready t.slot) (v : Value) :
    (p.undergo (.deferred (.positions t, v))).session.slots.isDone t.slot = true :=
  Slots.isDone_settle (s := p.session.slots) hp.slot _

/-- A slot that is carried is complete, has a value kept for it, or waits for an answer. -/
theorem cases_of_carries (h : p.session.Carries D j) :
    p.session.slots.isDone j = true ∨ (∃ d v, D d ∧ (d, v) ∈ p.session.deferred) ∨
      ∃ f ∈ p.session.futures.toList, p.session.slots.Hooks D f.2 j := by
  obtain (h | ⟨d, v, hd, hn⟩) | h := h
  · exact Or.inl h
  · exact Or.inr (Or.inl ⟨d, v, hd, Session.mem_deferred.2 hn⟩)
  · exact Or.inr (Or.inr h)

/-- Taking what lookups have left touches no slot, and a value that was kept for the ticket is applied. -/
theorem survives_carries (hD : ∀ d, D d → d ∈ t.lookups) (hpos : D (.positions t))
    (h : p.session.Carries D t.slot) : p.Survives t.slot (·.session.Carries D t.slot) := by
  obtain h | ⟨d, v, hd, hu⟩ | ⟨f, hf, hh⟩ := cases_of_carries h
  · exact Or.inl (Or.inl (Or.inl h))
  · refine Or.inr ⟨(d, v), hu, fun q hq => (hq.carries_deferred (hD d hd) v).mono fun d' hd' => ?_⟩
    rwa [hd']
  · exact Or.inl (Or.inr ⟨f, hf, hh⟩)

theorem survives_leaves (h : p.Leaves j) : p.Survives j (·.Leaves j) := Or.inl h

/-- Unless an answer is outstanding, what is left after a round is the lookup of a reset. -/
theorem Ready.carries_progress (hp : p.Ready t.slot)
    (h : p.session.Carries (· ∈ t.lookups) t.slot) (ha : ¬ p.Awaits t) (now : Int64) :
    (p.progress now).session.Carries (· = .positions t) t.slot := by
  refine hp.progress_induction (P := (·.session.Carries (· = .positions t) t.slot))
    (kept_carries _ _) ?_ now
  obtain h | ⟨d, v, hd, hu⟩ | h := cases_of_carries h
  · exact Or.inl (Or.inl (Or.inl h))
  · exact Or.inr ⟨(d, v), hu, fun q hq => hq.carries_deferred hd v⟩
  · exact absurd h ha

/-- Unless an answer is outstanding, nothing is left after a round but the lookup of a reset. -/
theorem Ready.isDone_progress (hp : p.Ready t.slot)
    (h : p.session.Carries (· = .positions t) t.slot) (ha : ¬ p.Awaits t) (now : Int64) :
    (p.progress now).session.slots.isDone t.slot = true := by
  have hkept : Kept t.slot (·.session.slots.isDone t.slot = true) :=
    fun q c hq _ hd => (hq.steady.worksOn_undergo c).keeps.isDone hd
  refine hp.progress_induction (P := (·.session.slots.isDone t.slot = true)) hkept ?_ now
  obtain h | ⟨d, v, rfl, hu⟩ | ⟨f, hf, hh⟩ := cases_of_carries h
  · exact Or.inl h
  · exact Or.inr ⟨(.positions t, v), hu, fun q hq => hq.isDone_deferred v⟩
  · exact absurd ⟨f, hf, hh.mono fun d hd => by simp [Ticket.lookups, hd]⟩ ha

/-! ### Runs -/

theorem act_process {e : AppEvent} (ht : e.ticket? = some t) :
    p.act (.process e) = p.receive e := by
  cases e with
  | poll | callbackDone => cases ht
  | _ => rfl

/-- What was processed is carried, or it is linked to a leave, at every later point. -/
theorem Ready.run_process (hp : p.Ready t.slot) {e : AppEvent} (ht : e.ticket? = some t)
    (bs : List Action) :
    let q := bs.foldl Processor.act (p.act (.process e))
    if e.isLeave then q.Leaves t.slot else q.session.Carries (· ∈ t.lookups) t.slot := by
  intro q
  have hr := hp.act (.process e)
  split
  · rename_i he
    obtain ⟨g, hc⟩ := trigger?_of_isLeave p he
    have hstart : (p.act (.process e)).Leaves t.slot := by
      rw [act_process ht]
      exact (hp.steady.motion hc).leaves hp ht
    exact hr.run_induction (kept_leaves t.slot) (fun _ _ => survives_leaves) hstart bs
  · rename_i he
    have hstart : (p.act (.process e)).session.Carries (· ∈ t.lookups) t.slot := by
      rw [act_process ht]
      exact carries_receive hp.filed hp.slot ht (by simpa using he)
    refine hr.run_induction (P := (·.session.Carries (· ∈ t.lookups) t.slot)) (kept_carries _ _)
      (fun q _ => survives_carries (fun _ => id) ?_) hstart bs
    simp [Ticket.lookups]

end Processor

namespace Setup

/-- Every event that has a ticket is attended to from the time on when it was processed. If it is no
request to leave, its ticket is complete after two rounds of background progress, unless an answer is
outstanding when one of them starts. -/
theorem attends (u : Setup) (inGroup : Bool) (as bs : List Action) {e : AppEvent} {t : Ticket}
    (ht : e.ticket? = some t)
    (hs : t.slot < (as.foldl Processor.act (u.begin inGroup)).session.slots.cells.size) :
    let p := (as ++ .process e :: bs).foldl Processor.act (u.begin inGroup)
    p.Attends t ∧
      (e.isLeave = false → ¬ p.Awaits t → ∀ (now : Int64) (cs : List Action) (later : Int64),
        let q := cs.foldl Processor.act (p.progress now)
        ¬ q.Awaits t → (q.progress later).session.slots.isDone t.slot = true) := by
  have hready : (as.foldl Processor.act (u.begin inGroup)).Ready t.slot :=
    ⟨(u.fit_begin inGroup).run as, hs⟩
  rw [List.foldl_append, List.foldl_cons]
  have hprocess := hready.run_process ht bs
  have hp := (hready.act (.process e)).run bs
  generalize bs.foldl Processor.act _ = p at hprocess hp ⊢
  refine ⟨?_, fun he ha now cs later => ?_⟩
  · cases he : e.isLeave with
    | false =>
      simp only [he] at hprocess
      exact Processor.attends_of_carries hprocess
    | true =>
      simp only [he] at hprocess
      obtain h | h := hprocess
      · exact .complete h
      · exact .leaving h
  · simp only [he] at hprocess
    have hround := hp.carries_progress hprocess ha now
    have hnext := hp.act (.progress now)
    have hrun := hnext.run_induction
      (P := (·.session.Carries (· = .positions t) t.slot)) (Processor.kept_carries _ _)
      (fun q _ => Processor.survives_carries (by simp [Ticket.lookups]) rfl) hround cs
    exact fun hq => (hnext.run cs).isDone_progress hrun hq later

/-- A partition without a committed offset gets its position in two rounds. -/
theorem attends_through_two_lookups :
    let u : Setup := { script := { managers := [.commit, .offsets] } }
    let tp : TopicPartition := { topic := "t", number := 0 }
    let as : List Action :=
      [.outside .fresh, .process (.assign (ticketAt 0) 0 (.ofList [tp])), .outside .fresh]
    let bs : List Action := [.outside (.settle 2 (.ok (.offsets ∅)))]
    let cs : List Action := [.outside (.settle 3 (.ok (.positions (.ofList [(tp, 7)]))))]
    let p := (as ++ .process (.checkPositions (ticketAt 1)) :: bs).foldl Processor.act (u.begin false)
    let q := cs.foldl Processor.act (p.progress 0)
    p.session.slots.isDone (ticketAt 1).slot = false ∧
      (q.progress 0).session.slots.isDone (ticketAt 1).slot = true := by
  intro u tp as bs cs p q
  have hs : (ticketAt 1).slot < (as.foldl Processor.act (u.begin false)).session.slots.cells.size := by
    decide +kernel
  have hp : ∀ f ∈ p.session.futures.toList, p.session.slots.isDone f.2 = true := by decide +kernel
  have hq : ∀ f ∈ q.session.futures.toList, q.session.slots.isDone f.2 = true := by decide +kernel
  have hpending : p.session.slots.isDone (ticketAt 1).slot = false := by decide +kernel
  have hap : ¬ p.Awaits (ticketAt 1) := Processor.not_awaits_of_done hp
  have haq : ¬ q.Awaits (ticketAt 1) := Processor.not_awaits_of_done hq
  have htwo := (attends u false as bs (e := .checkPositions (ticketAt 1)) rfl hs).2 rfl hap 0 cs 0 haq
  exact ⟨hpending, htwo⟩

end Setup

end GroupConsumer
