import GroupConsumer.Proofs.Client.Deeds

/-!
# How a caller deals with what was published

What was published is handled in two ways: the caller is told the first fault, or the first fault is kept
for a later call. Every call is a row of quiet deeds and of such handling, and the only fault of the
background that it passes on is its own answer (`deals_answer`). Such rows are ordinary deeds, so that
every call is a row of these too (`leads_answer`). Closing is such a row with four deeds of its own at its
beginning, in the middle and at its end (`exists_closing`).
-/

namespace GroupConsumer

/-- What a caller does about what was published. -/
inductive Dealing where
  /-- The caller does something else. -/
  | other (x : Deed)
  /-- The caller handles what was published and is told the first fault. -/
  | report
  /-- The caller handles what was published and keeps the first fault. -/
  | keep

/-- Whether what was published is left alone or handled, and never just taken. -/
def Dealing.proper : Dealing → Bool
  | other x => x.quiet
  | report | keep => true

namespace Client

open Deed

/-- The consumer after a dealing. -/
def deal (c : Client) : Dealing → Client
  | .other x => c.deed x
  | .report => c.processBackground.1
  | .keep => c.processAndHold

/-- The faults that the caller is told by a dealing. -/
def told (c : Client) : Dealing → List Fault
  | .report => match c.processBackground.2 with
    | .ok _ => []
    | .error f => [f]
  | .other _ | .keep => []

/-- The consumer after a row of dealings. -/
def deals (c : Client) (xs : List Dealing) : Client := xs.foldl deal c

/-- The faults that the caller is told by a row of dealings. -/
def hears : Client → List Dealing → List Fault
  | _, [] => []
  | c, x :: xs => c.told x ++ (c.deal x).hears xs

theorem deals_append (c : Client) (xs ys : List Dealing) :
    c.deals (xs ++ ys) = (c.deals xs).deals ys :=
  List.foldl_append

theorem hears_append (c : Client) (xs ys : List Dealing) :
    c.hears (xs ++ ys) = c.hears xs ++ (c.deals xs).hears ys := by
  induction xs generalizing c with
  | nil => rfl
  | cons x xs ih =>
    show c.told x ++ (c.deal x).hears (xs ++ ys) = _
    rw [ih, ← List.append_assoc]
    rfl

/-- Proper dealings make `d` of `c`, and the caller is told `fs` by them. -/
def Deals (c : Client) (fs : List Fault) (d : Client) : Prop :=
  ∃ xs : List Dealing, (∀ x ∈ xs, x.proper = true) ∧ c.deals xs = d ∧ c.hears xs = fs

variable {c d e : Client} {fs gs : List Fault}

theorem Deals.refl (c : Client) : c.Deals [] c :=
  ⟨[], fun _ hx => absurd hx List.not_mem_nil, rfl, rfl⟩

theorem Deals.trans (h : c.Deals fs d) (h' : d.Deals gs e) : c.Deals (fs ++ gs) e := by
  obtain ⟨xs, hxs, rfl, rfl⟩ := h
  obtain ⟨ys, hys, rfl, rfl⟩ := h'
  refine ⟨xs ++ ys, fun x hx => ?_, deals_append c xs ys, hears_append c xs ys⟩
  rcases List.mem_append.1 hx with hx | hx
  · exact hxs x hx
  · exact hys x hx

theorem deals_deal (c : Client) {x : Dealing} (hx : x.proper = true) :
    c.Deals (c.told x) (c.deal x) :=
  ⟨[x], fun y hy => by rwa [List.mem_singleton.1 hy], rfl, List.append_nil _⟩

/-- Quiet deeds tell the caller nothing. -/
theorem Passes.deals (h : c.Passes d) : c.Deals [] d := by
  obtain ⟨ds, hds, rfl⟩ := h
  induction ds generalizing c with
  | nil => exact .refl c
  | cons x ds ih =>
    have hx : c.Deals [] (c.deed x) := c.deals_deal (x := .other x) (hds x List.mem_cons_self)
    exact hx.trans (ih fun y hy => hds y (List.mem_cons_of_mem x hy))

theorem leads_deal (c : Client) {x : Dealing} (hx : x.proper = true) : c.Leads (c.deal x) := by
  cases x with
  | other x => exact c.row_deed (ordinary_of_quiet hx)
  | report => exact c.row_deed (x := .handle) rfl
  | keep =>
    have hh : c.Leads c.processBackground.1 := c.row_deed (x := .handle) rfl
    show c.Leads c.processAndHold
    unfold processAndHold
    generalize c.processBackground = r at hh ⊢
    obtain ⟨d, f | _⟩ := r
    · exact hh.trans (d.row_deed (x := .hold (d.heldFault.getD f)) rfl)
    · exact hh

/-- Dealings are rows of ordinary deeds. -/
theorem Deals.leads (h : c.Deals fs d) : c.Leads d := by
  obtain ⟨xs, hxs, rfl, rfl⟩ := h
  induction xs generalizing c with
  | nil => exact .refl c
  | cons x xs ih =>
    have hx := c.leads_deal (hxs x List.mem_cons_self)
    exact hx.trans (ih fun y hy => hxs y (List.mem_cons_of_mem x hy))

/-- A caller that waits keeps what it handles meanwhile. -/
theorem deals_waitHandling (c : Client) (t : Ticket) (fuel : Nat) :
    c.Deals [] (waitHandling t fuel c).1 := by
  induction fuel generalizing c with
  | zero => exact .refl c
  | succ fuel ih =>
    have hh : c.Deals [] c.processAndHold := c.deals_deal (x := .keep) rfl
    have hs := hh.trans c.processAndHold.passes_settle.deals
    unfold waitHandling
    simp only
    split
    · exact hh
    · split
      · exact hs
      · split
        · exact hs
        · exact hs.trans (ih _)

/-- A call that handles what is published while it waits. -/
theorem deals_callHandling (c : Client) (kind : AppEvent.Kind) (deadline : Int64)
    (event : Ticket → AppEvent) :
    c.Deals [] (match c.issue kind deadline with
      | (c, t) => match c.submit (event t) with
        | (c, .ok _) => Answered.unit (waitHandling t mostHandlings c)
        | (c, .error f) => (c, .error f) : Answered Unit).1 := by
  have hissue := (c.passes_issue kind deadline).deals
  generalize c.issue kind deadline = r at hissue ⊢
  obtain ⟨d, t⟩ := r
  have hwait (e : Client) : e.Deals [] (Answered.unit (waitHandling t mostHandlings e)).1 := by
    simp only [Answered.unit]
    exact e.deals_waitHandling t mostHandlings
  have hsubmit := (d.passes_submit (event t)).deals
  exact hissue.trans (of_submit (P := d.Deals []) hsubmit (hsubmit.trans (hwait _)))

end Client

/-! ### Whole calls -/

/-- What a caller may ask of a consumer, but for closing it. -/
inductive ClientCall where
  | subscribe (topics : SortedSet String) (listener : Option RebalanceListener)
  | subscribePattern (pattern : String) (listener : Option RebalanceListener)
  | refreshPattern
  | unsubscribe
  | assign (parts : PartitionSet)
  | commitSync (offsets : Option OffsetMap) (timeout : Int64)
  | commitAsync (offsets : Option OffsetMap)
  | committed (parts : PartitionSet) (timeout : Int64)
  | offsetsForTimes (times : PositionMap) (timeout : Int64)
  | beginningOffsets (parts : PartitionSet) (timeout : Int64)
  | endOffsets (parts : PartitionSet) (timeout : Int64)
  | seek (tp : TopicPartition) (offset : Int64)
  | resetOffsets (parts : PartitionSet) (strategy : ResetStrategy)
  | currentLag (tp : TopicPartition)
  | poll (timeout : Int64)

namespace Client

open Deed

/-- The consumer after a call, and the fault that the call ends with, if any. -/
def Answered.fault? {α : Type} (r : Answered α) : Client × Option Fault :=
  (r.1, match r.2 with | .ok _ => none | .error f => some f)

/-- Does what the caller asks. -/
def answer (c : Client) : ClientCall → Client × Option Fault
  | .subscribe topics l => Answered.fault? (c.subscribe topics l)
  | .subscribePattern pattern l => Answered.fault? (c.subscribePattern pattern l)
  | .refreshPattern => Answered.fault? c.refreshPattern
  | .unsubscribe => Answered.fault? c.unsubscribe
  | .assign parts => Answered.fault? (c.assign parts)
  | .commitSync offsets timeout => Answered.fault? (c.commitSync offsets timeout)
  | .commitAsync offsets => Answered.fault? (c.commitAsync offsets)
  | .committed parts timeout => Answered.fault? (c.committed parts timeout)
  | .offsetsForTimes times timeout => Answered.fault? (c.offsetsForTimes times timeout)
  | .beginningOffsets parts timeout => Answered.fault? (c.beginningOffsets parts timeout)
  | .endOffsets parts timeout => Answered.fault? (c.endOffsets parts timeout)
  | .seek tp offset => Answered.fault? (c.seek tp offset)
  | .resetOffsets parts strategy => Answered.fault? (c.resetOffsets parts strategy)
  | .currentLag tp => Answered.fault? (c.currentLag tp)
  | .poll timeout => Answered.fault? (c.poll timeout)

variable {c : Client}

theorem deals_unsubscribe (c : Client) : c.Deals [] c.unsubscribe.1 :=
  of_ifOpen (.refl c) (c.deals_callHandling .unsubscribe c.apiDeadline .unsubscribe)

theorem passes_boundaryOffsets (c : Client) (parts : PartitionSet) (boundary timeout : Int64) :
    c.Passes (c.boundaryOffsets parts boundary timeout).1 := by
  unfold boundaryOffsets
  exact of_ifOpen (.refl c) (c.passes_call .listOffsets _ _)

/-- What a call passes on of the faults of the background is its own answer. -/
def PassesOn (fs : List Fault) (answer : Option Fault) : Prop :=
  fs = [] ∨ ∃ f, fs = [f] ∧ answer = some f

/-- A caller that handles what was published is told what this ends with. -/
theorem deals_report (c : Client) :
    ∃ fs, c.Deals fs c.processBackground.1 ∧
      (c.processBackground.2 = .ok () ∧ fs = [] ∨ ∃ f, c.processBackground.2 = .error f ∧ fs = [f]) := by
  have h := c.deals_deal (x := .report) rfl
  simp only [deal, told] at h
  cases hr : c.processBackground.2 with
  | ok u =>
    rw [hr] at h
    exact ⟨[], h, Or.inl ⟨rfl, rfl⟩⟩
  | error f =>
    rw [hr] at h
    exact ⟨[f], h, Or.inr ⟨f, rfl, rfl⟩⟩

/-- A poll passes on what it handles before or after its events. -/
theorem deals_poll (c : Client) (timeout : Int64) :
    ∃ fs, c.Deals fs (c.poll timeout).1 ∧ PassesOn fs (Answered.fault? (c.poll timeout)).2 := by
  simp only [poll, ifOpen]
  split
  · exact ⟨[], .refl c, Or.inl rfl⟩
  · obtain ⟨fs, hfirst, hr⟩ := c.deals_report
    generalize c.processBackground = r at hfirst hr ⊢
    obtain ⟨d, f | _⟩ := r
    · obtain ⟨hr, -⟩ | ⟨g, hr, rfl⟩ := hr <;> cases hr
      exact ⟨[f], hfirst, Or.inr ⟨f, rfl, rfl⟩⟩
    · obtain ⟨-, rfl⟩ | ⟨g, hr, -⟩ := hr
      · have hevents := hfirst.trans (d.passes_pollEvents timeout).deals
        simp only
        generalize d.pollEvents timeout = r at hevents ⊢
        obtain ⟨e, f | _⟩ := r
        · exact ⟨[], hevents, Or.inl rfl⟩
        · obtain ⟨gs, hlast, hr⟩ := e.deals_report
          refine ⟨gs, hevents.trans hlast, ?_⟩
          simp only [Answered.fault?]
          obtain ⟨hr, rfl⟩ | ⟨f, hr, rfl⟩ := hr
          · exact Or.inl rfl
          · exact Or.inr ⟨f, rfl, by rw [hr]⟩
      · cases hr

/-- Every call is a row of proper dealings, and what it passes on is its own answer. -/
theorem deals_answer (c : Client) (q : ClientCall) :
    ∃ fs, c.Deals fs (c.answer q).1 ∧ PassesOn fs (c.answer q).2 := by
  have hsilent (h : c.Deals [] (c.answer q).1) :
      ∃ fs, c.Deals fs (c.answer q).1 ∧ PassesOn fs (c.answer q).2 := ⟨[], h, Or.inl rfl⟩
  have hcall (kind : AppEvent.Kind) (deadline : Int64) (event : Ticket → AppEvent) :=
    (c.passes_call kind deadline event).deals
  cases q with
  | subscribe topics l =>
    refine hsilent ?_
    show c.Deals [] (c.subscribe topics l).1
    unfold subscribe
    refine of_ifOpen (.refl c) ?_
    split
    · exact c.deals_unsubscribe
    · split
      · exact .refl c
      · exact (c.passes_callListening l .subscribeTopics _).deals
  | subscribePattern pattern l =>
    exact hsilent (of_ifOpen (.refl c) (c.passes_callListening l .subscribePattern _).deals)
  | refreshPattern => exact hsilent (of_ifOpen (.refl c) (hcall .refreshPattern _ _))
  | unsubscribe => exact hsilent c.deals_unsubscribe
  | assign parts =>
    refine hsilent ?_
    show c.Deals [] (c.assign parts).1
    unfold assign
    refine of_ifOpen (.refl c) ?_
    split
    · exact c.deals_unsubscribe
    · split
      · exact .refl c
      · exact hcall .assign _ _
  | commitSync offsets timeout => exact hsilent (of_ifOpen (.refl c) (hcall .commitSync _ _))
  | commitAsync offsets => exact hsilent (c.deals_deal (x := .other (.commitAsync offsets)) rfl)
  | committed parts timeout => exact hsilent (of_ifOpen (.refl c) (hcall .fetchCommitted _ _))
  | offsetsForTimes times timeout =>
    refine hsilent ?_
    show c.Deals [] (c.offsetsForTimes times timeout).1
    unfold offsetsForTimes
    refine of_ifOpen (.refl c) ?_
    split
    · exact .refl c
    · exact hcall .listOffsets _ _
  | beginningOffsets parts timeout =>
    exact hsilent (c.passes_boundaryOffsets parts earliestTimestamp timeout).deals
  | endOffsets parts timeout =>
    exact hsilent (c.passes_boundaryOffsets parts latestTimestamp timeout).deals
  | seek tp offset =>
    refine hsilent ?_
    show c.Deals [] (c.seek tp offset).1
    unfold seek
    refine of_ifOpen (.refl c) ?_
    split
    · exact .refl c
    · exact hcall .seek _ _
  | resetOffsets parts strategy => exact hsilent (of_ifOpen (.refl c) (hcall .resetOffset _ _))
  | currentLag tp => exact hsilent (of_ifOpen (.refl c) (hcall .currentLag _ _))
  | poll timeout => exact c.deals_poll timeout

/-- Every call is a row of ordinary deeds. -/
theorem leads_answer (c : Client) (q : ClientCall) : c.Leads (c.answer q).1 := by
  obtain ⟨fs, h, -⟩ := c.deals_answer q
  exact h.leads

/-- A closed consumer refuses every call and is left as it is. -/
theorem answer_of_closed (hc : c.closed = true) (q : ClientCall) : c.answer q = (c, some .closed) := by
  have hopen {α : Type} (f : Client → Answered α) :
      Answered.fault? (c.ifOpen f) = (c, some .closed) := by
    rw [ifOpen, if_pos hc]
    rfl
  cases q <;> exact hopen _

/-- Closing a closed consumer does nothing. -/
theorem close_of_closed (hc : c.closed = true) (timeout : Int64) : c.close timeout = (c, .ok ()) := by
  rw [close, if_pos hc]

/-! ### Closing -/

theorem leads_commitOnClose (c : Client) (deadline : Int64) :
    c.Leads (c.commitOnClose deadline).1 := by
  unfold commitOnClose
  split
  · have h : c.Leads (c.commitSyncUntil none deadline).1 := (c.passes_call .commitSync _ _).leads
    generalize c.commitSyncUntil none deadline = r at h ⊢
    split <;> exact h
  · exact .refl c

theorem leads_leaveOnClose (c : Client) (deadline : Int64) :
    c.Leads (c.leaveOnClose deadline).1 := by
  unfold leaveOnClose
  split
  · exact (c.deals_callHandling .leaveOnClose deadline .leaveOnClose).leads
  · exact .refl c

/-- What stays open stays so, and a loop that runs goes on running. -/
theorem closed_handleBackground (cf : Client × Option Fault) (e : BackgroundEvent) :
    (handleBackground cf e).1.closed = cf.1.closed ∧
      (handleBackground cf e).1.running = cf.1.running := by
  obtain ⟨c, first⟩ := cf
  cases e with
  | callbackNeeded r =>
    simp only [handleBackground, BackgroundEvent.ticket?, runCallback]
    split <;> exact ⟨rfl, rfl⟩
  | tasksCallbackNeeded r =>
    simp only [handleBackground, BackgroundEvent.ticket?, runTasksCallback]
    split <;> exact ⟨rfl, rfl⟩
  | _ => exact ⟨rfl, rfl⟩

theorem closed_foldl_handleBackground (es : List BackgroundEvent) (cf : Client × Option Fault) :
    (es.foldl handleBackground cf).1.closed = cf.1.closed ∧
      (es.foldl handleBackground cf).1.running = cf.1.running := by
  induction es generalizing cf with
  | nil => exact ⟨rfl, rfl⟩
  | cons e es ih =>
    obtain ⟨hc, hr⟩ := closed_handleBackground cf e
    obtain ⟨hc', hr'⟩ := ih (handleBackground cf e)
    exact ⟨hc'.trans hc, hr'.trans hr⟩

/-- Ordinary deeds neither close a consumer nor stop its loop. -/
theorem closed_deed (c : Client) {x : Deed} (hx : x.ordinary = true) :
    (c.deed x).closed = c.closed ∧ (c.deed x).running = c.running := by
  cases x with
  | close | refuse | stop _ | failCallbacks => cases hx
  | handle =>
    simp only [deed, processBackground]
    exact closed_foldl_handleBackground _ _
  | commitAsync offsets =>
    simp only [deed, commitAsync, ifOpen]
    split <;> exact ⟨rfl, rfl⟩
  | round =>
    rw [deed]
    split <;> exact ⟨rfl, rfl⟩
  | _ => exact ⟨rfl, rfl⟩

theorem closed_does (c : Client) {ds : List Deed} (hds : Ordinary ds) :
    (c.does ds).closed = c.closed ∧ (c.does ds).running = c.running := by
  induction ds generalizing c with
  | nil => exact ⟨rfl, rfl⟩
  | cons x ds ih =>
    obtain ⟨hc, hr⟩ := c.closed_deed (hds x List.mem_cons_self)
    obtain ⟨hc', hr'⟩ := ih (c.deed x) fun y hy => hds y (List.mem_cons_of_mem x hy)
    exact ⟨hc'.trans hc, hr'.trans hr⟩

/-- What closing comes to, step by step. -/
theorem close_eq (hc : c.closed = false) (timeout : Int64) :
    let shut : Client := { c with closed := true }
    let deadline := shut.deadlineIn timeout
    let told := ((shut.commitOnClose deadline).1.submit .commitOnClose).1
    let left := ((told.leaveOnClose deadline).1.submit .stopCoordinatorOnClose).1
    let refusing : Client := { left with loop := left.loop.refuse }
    (c.close timeout).1 =
      (refusing.stopLoop (remaining refusing.session.clock deadline)).failCallbacks := by
  intro shut deadline told left refusing
  have hf : ¬ c.closed = true := by simp [hc]
  rw [close, if_neg hf]

/-- Closing a consumer that is open is a row of deeds. -/
theorem exists_closing (hc : c.closed = false) (hr : c.running = true) (timeout : Int64) :
    ∃ ds, Closing ds ∧ (c.close timeout).1 = c.does ds := by
  let shut := c.deed .close
  let deadline := shut.deadlineIn timeout
  let told := ((shut.commitOnClose deadline).1.submit .commitOnClose).1
  let left := ((told.leaveOnClose deadline).1.submit .stopCoordinatorOnClose).1
  let refusing := left.deed .refuse
  have htold : shut.Leads told := (shut.leads_commitOnClose deadline).trans (passes_submit _ _).leads
  have hleft : told.Leads left := (told.leads_leaveOnClose deadline).trans (passes_submit _ _).leads
  obtain ⟨before, hbefore, hdone⟩ := htold.trans hleft
  obtain ⟨between, hbetween, hsettle⟩ := refusing.passes_settle.leads
  have hrunning : refusing.running = true := by
    have h : left.running = shut.running := by
      rw [hdone]
      exact (shut.closed_does hbefore).2
    exact h.trans hr
  let rest := remaining refusing.session.clock deadline
  have hstop : refusing.stopLoop rest = refusing.settle.deed (.stop rest) := by
    rw [stopLoop, if_pos hrunning]
    rfl
  refine ⟨_, ⟨before, between, rest, hbefore, hbetween, rfl⟩, ?_⟩
  have hrow : c.does (.close :: before ++ .refuse :: between ++ [.stop rest, .failCallbacks]) =
      ((((shut.does before).deed .refuse).does between).deed (.stop rest)).failCallbacks := by
    simp only [does, List.foldl_append, List.foldl_cons, List.foldl_nil, List.cons_append]
    rfl
  rw [hrow, ← hdone, ← hsettle, ← hstop]
  exact close_eq hc timeout

end Client

end GroupConsumer
