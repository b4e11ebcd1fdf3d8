import GroupConsumer.Proofs.Closing
import Mathlib.Data.List.Forall2

/-!
# Handling what was published

A caller that handles what was published goes through all of it in order, whatever comes of the runs of
its listener (`Client.Handles`). Of the faults it is told one, the first that it has not been told
before: the faults that were ever published fall into rows, each but the last ended by a report, and what
the caller is told is the head of each row that was reported (`Client.Accounts`). A fault that is kept for
later is the head of the last row.
-/

namespace GroupConsumer

/-- The metadata of a group after some updates. -/
def GroupMetadata.updated (g : GroupMetadata) (ids : List (String × Int)) : GroupMetadata :=
  match ids.getLast? with
  | some (memberId, memberEpoch) => { g with memberId, memberEpoch }
  | none => g

theorem GroupMetadata.updated_append (g : GroupMetadata) (ids ids' : List (String × Int)) :
    g.updated (ids ++ ids') = (g.updated ids).updated ids' := by
  rcases ids'.eq_nil_or_concat with rfl | ⟨ids', x, rfl⟩
  · rw [List.append_nil]
    rfl
  · rw [List.concat_eq_append, ← List.append_assoc]
    simp only [updated, List.getLast?_concat]
    split <;> rfl

/-- The request to run the streams listener, if the event is one. -/
def BackgroundEvent.tasks? : BackgroundEvent → Option TasksRequest
  | tasksCallbackNeeded r => some r
  | fault _ | callbackNeeded _ | groupMetadata .. => none

/-- The runs of a listener, if there is one, that some events ask for. -/
def RebalanceListener.runs (l? : Option RebalanceListener) (es : List BackgroundEvent) :
    List CallbackRun :=
  match l? with
  | some l => (es.filterMap (·.request?)).map l.run
  | none => []

/-- The runs of a streams listener, if there is one, that some events ask for. -/
def StreamsListener.runs (l? : Option StreamsListener) (es : List BackgroundEvent) : List TasksRun :=
  match l? with
  | some _ => (es.filterMap (·.tasks?)).map (·.run)
  | none => []

theorem RebalanceListener.runs_append (l? : Option RebalanceListener)
    (es es' : List BackgroundEvent) : runs l? (es ++ es') = runs l? es ++ runs l? es' := by
  cases l? with
  | none => rfl
  | some l => simp only [runs, List.filterMap_append, List.map_append]

theorem StreamsListener.runs_append (l? : Option StreamsListener) (es es' : List BackgroundEvent) :
    runs l? (es ++ es') = runs l? es ++ runs l? es' := by
  cases l? with
  | none => rfl
  | some l => simp only [runs, List.filterMap_append, List.map_append]

/-- The listeners of a consumer, and what they were run for. -/
structure Callbacks where
  listener : Option RebalanceListener
  streams : Option StreamsListener
  ran : List CallbackRun
  tasksRan : List TasksRun

namespace Callbacks

/-- The listeners are run for some events, in order. -/
def after (k : Callbacks) (es : List BackgroundEvent) : Callbacks :=
  { k with
    ran := k.ran ++ RebalanceListener.runs k.listener es
    tasksRan := k.tasksRan ++ StreamsListener.runs k.streams es }

/-- What the loop is let know when an event has been handled: what came of the run, if there was one. -/
def completion? (k : Callbacks) : BackgroundEvent → Option AppEvent
  | .callbackNeeded r =>
    some (.callbackDone r.method r.ticket.slot
      (k.listener.bind fun l => l.fails k.ran (l.run r)))
  | .tasksCallbackNeeded r =>
    some (.tasksCallbackDone r.callback r.ticket.slot
      (k.streams.bind fun l => l.fails k.tasksRan r.run))
  | .fault _ | .groupMetadata .. => none

/-- What the loop is let know while some events are handled, in order. -/
def completions : Callbacks → List BackgroundEvent → List AppEvent
  | _, [] => []
  | k, e :: es => (k.completion? e).toList ++ (k.after [e]).completions es

variable (k : Callbacks)

theorem after_append (es es' : List BackgroundEvent) :
    k.after (es ++ es') = (k.after es).after es' := by
  simp only [after, RebalanceListener.runs_append, StreamsListener.runs_append, List.append_assoc]

theorem after_nil : k.after [] = k := by
  obtain ⟨listener, streams, ran, tasksRan⟩ := k
  cases listener <;> cases streams <;> simp [after, RebalanceListener.runs, StreamsListener.runs]

theorem completions_append (es es' : List BackgroundEvent) :
    k.completions (es ++ es') = k.completions es ++ (k.after es).completions es' := by
  induction es generalizing k with
  | nil => rw [after_nil]; rfl
  | cons e es ih =>
    have hafter := k.after_append [e] es
    rw [List.singleton_append] at hafter
    rw [List.cons_append, completions, completions, ih, hafter, List.append_assoc]

end Callbacks

namespace Client

/-- The listeners of a consumer, and what they were run for. -/
def callbacks (c : Client) : Callbacks :=
  ⟨c.listener, c.streamsListener, c.ran.toList, c.tasksRan.toList⟩

/-- The caller has handled the events `es`, one after the other: it has run its listeners, let the loop
know, and taken over the identity that it was told of. -/
structure Handles (c d : Client) (es : List BackgroundEvent) : Prop where
  events : d.session.events = c.session.events
  held : d.heldFault = c.heldFault
  callbacks : d.callbacks = c.callbacks.after es
  groupMetadata : d.groupMetadata =
    c.groupMetadata.map (·.updated (es.filterMap (·.identity?)))
  refusing : d.loop.refusing = c.loop.refusing
  queued : c.loop.refusing = false →
    d.loop.queue.waiting.map (·.item) =
      c.loop.queue.waiting.map (·.item) ++ c.callbacks.completions es

variable {c d e : Client} {es es' : List BackgroundEvent}

theorem Handles.nil (c : Client) : c.Handles c [] := by
  refine ⟨rfl, rfl, c.callbacks.after_nil.symm, ?_, rfl, fun _ => (List.append_nil _).symm⟩
  cases c.groupMetadata <;> rfl

theorem Handles.trans (h : c.Handles d es) (h' : d.Handles e es') : c.Handles e (es ++ es') := by
  refine ⟨h'.events.trans h.events, h'.held.trans h.held, ?_, ?_, h'.refusing.trans h.refusing,
    fun hr => ?_⟩
  · rw [h'.callbacks, h.callbacks, Callbacks.after_append]
  · rw [h'.groupMetadata, h.groupMetadata, Option.map_map, List.filterMap_append]
    exact congrArg (Option.map · c.groupMetadata)
      (funext fun g => (g.updated_append _ _).symm)
  · rw [h'.queued (h.refusing.trans hr), h.queued hr, h.callbacks, Callbacks.completions_append,
      List.append_assoc]

/-- Letting the loop know of the end of a callback neither publishes nor fails anything. -/
theorem submit_completion (c : Client) {x : AppEvent} (hx : x.ticket? = none) :
    ∃ l : BackgroundLoop, (c.submit x).1 = { c with loop := l } ∧
      l.session.events = c.session.events ∧ l.refusing = c.loop.refusing ∧
      (c.loop.refusing = false →
        l.queue.waiting.map (·.item) = c.loop.queue.waiting.map (·.item) ++ [x]) := by
  refine ⟨(c.loop.submit x).1, rfl, ?_⟩
  unfold BackgroundLoop.submit
  split
  · rename_i hr
    rw [BackgroundLoop.failEvent, hx]
    exact ⟨rfl, rfl, fun h => absurd (hr.symm.trans h) (by decide)⟩
  · refine ⟨rfl, rfl, fun _ => ?_⟩
    show List.map _ (c.loop.queue.waiting ++ [_]) = _
    rw [List.map_append]
    rfl

/-- The consumer that has run its listeners for some events. -/
def runAll (c : Client) (es : List BackgroundEvent) : Client :=
  { c with
    ran := c.ran ++ (RebalanceListener.runs c.listener es).toArray
    tasksRan := c.tasksRan ++ (StreamsListener.runs c.streamsListener es).toArray }

/-- An event is handled of which the loop is let know once the listeners have been run. -/
theorem handles_of_submit {x : BackgroundEvent} {y : AppEvent} {r : Reaper}
    (hi : x.identity? = none) (hy : c.callbacks.completion? x = some y) (ht : y.ticket? = none)
    (hd : d = (submit ({ c with reaper := r }.runAll [x]) y).1) : c.Handles d [x] := by
  obtain ⟨l, hl, hevents, hrefusing, hqueue⟩ := submit_completion
    ({ c with reaper := r }.runAll [x]) ht
  have hcompletions : c.callbacks.completions [x] = [y] := by
    rw [Callbacks.completions, hy]
    rfl
  rw [hl] at hd
  subst hd
  refine ⟨hevents, rfl, ?_, ?_, hrefusing, fun hr => ?_⟩
  · simp only [callbacks, runAll, Callbacks.after, Array.toList_append]
  · rw [List.filterMap_cons, hi]
    show c.groupMetadata = _
    cases c.groupMetadata <;> rfl
  · rw [hcompletions]
    exact hqueue hr

/-- An event is handled of which the loop need not know. -/
theorem handles_of_completion_eq_none {x : BackgroundEvent}
    (hx : c.callbacks.completion? x = none) {g : Option GroupMetadata}
    (hg : g = c.groupMetadata.map (·.updated ([x].filterMap (·.identity?)))) :
    c.Handles { c with groupMetadata := g } [x] := by
  have hruns : c.callbacks.after [x] = c.callbacks := by
    cases x with
    | callbackNeeded | tasksCallbackNeeded => cases hx
    | fault | groupMetadata => exact c.callbacks.after_nil
  refine ⟨rfl, rfl, hruns.symm, hg, rfl, fun _ => ?_⟩
  rw [Callbacks.completions, hx]
  exact (List.append_nil _).symm

/-- The listener, if there is one, is run, and the loop is let know what came of it. -/
theorem runCallback_eq_submit (c : Client) (r : CallbackRequest) :
    c.runCallback r = (submit (c.runAll [.callbackNeeded r])
      (.callbackDone r.method r.ticket.slot
        (c.listener.bind fun l => l.fails c.ran.toList (l.run r)))).1 := by
  obtain ⟨_, _, _, listener, streams, _, _, _, _, ran, _⟩ := c
  cases listener <;> cases streams <;>
    simp [runCallback, runAll, RebalanceListener.runs, StreamsListener.runs,
      BackgroundEvent.request?, BackgroundEvent.tasks?]

/-- The streams listener, if there is one, is run, and the loop is let know what came of it. -/
theorem runTasksCallback_eq_submit (c : Client) (r : TasksRequest) :
    c.runTasksCallback r = (submit (c.runAll [.tasksCallbackNeeded r])
      (.tasksCallbackDone r.callback r.ticket.slot
        (c.streamsListener.bind fun l => l.fails c.tasksRan.toList r.run))).1 := by
  obtain ⟨_, _, _, listener, streams, _, _, _, _, _, tasksRan⟩ := c
  cases listener <;> cases streams <;>
    simp [runTasksCallback, runAll, RebalanceListener.runs, StreamsListener.runs,
      BackgroundEvent.request?, BackgroundEvent.tasks?]

/-- One event is handled, and its fault is the first if there was none. -/
theorem handles_handleBackground (c : Client) (first : Option Fault) (x : BackgroundEvent) :
    c.Handles (handleBackground (c, first) x).1 [x] ∧
      (handleBackground (c, first) x).2 = first.or x.fault? := by
  cases x with
  | fault f =>
    have hsame : c.groupMetadata = c.groupMetadata.map (·.updated []) := by
      cases c.groupMetadata <;> rfl
    refine ⟨handles_of_completion_eq_none rfl hsame, ?_⟩
    cases first <;> rfl
  | groupMetadata => exact ⟨handles_of_completion_eq_none rfl rfl, Option.or_none.symm⟩
  | callbackNeeded r =>
    exact ⟨handles_of_submit rfl rfl rfl (runCallback_eq_submit _ r), Option.or_none.symm⟩
  | tasksCallbackNeeded r =>
    exact ⟨handles_of_submit rfl rfl rfl (runTasksCallback_eq_submit _ r), Option.or_none.symm⟩

/-- All events are handled, and the first fault is told. -/
theorem handles_foldl (es : List BackgroundEvent) (c : Client) (first : Option Fault) :
    c.Handles (es.foldl handleBackground (c, first)).1 es ∧
      (es.foldl handleBackground (c, first)).2 =
        first.or (es.filterMap (·.fault?)).head? := by
  induction es generalizing c first with
  | nil => exact ⟨.nil c, (Option.or_none).symm⟩
  | cons x es ih =>
    obtain ⟨hx, hfirst⟩ := c.handles_handleBackground first x
    obtain ⟨hes, hlast⟩ := ih (handleBackground (c, first) x).1 (handleBackground (c, first) x).2
    refine ⟨hx.trans hes, hlast.trans ?_⟩
    rw [hfirst, Option.or_assoc]
    congr 1
    cases hf : x.fault? <;> simp [hf]

/-- What a call that handles what was published ends with. -/
def reported : Option Fault → Except Fault Unit
  | some f => .error f
  | none => .ok ()

/-- All that was published is handled: nothing of it is left, and of the faults the one that was kept is
told, or else the first. -/
theorem handles_processBackground (c : Client) :
    c.drained.Handles c.handled c.session.events ∧
      c.processBackground.2 =
        reported (c.heldFault.or (c.session.events.filterMap (·.fault?)).head?) := by
  obtain ⟨hhandles, hfirst⟩ := handles_foldl c.session.events c.drained c.heldFault
  refine ⟨hhandles, ?_⟩
  rw [← hfirst]
  have hd : ({ c.withSession fun _ => c.session.drainBackground.1 with heldFault := none } : Client) =
      c.drained := rfl
  simp only [processBackground, drainBackground_snd, hd]
  cases (c.session.events.foldl handleBackground (c.drained, c.heldFault)).2 <;> rfl

theorem events_processBackground (c : Client) : c.processBackground.1.session.events = [] := by
  rw [processBackground_fst]
  show c.handled.session.events = []
  rw [c.handles_processBackground.1.events, events_drained]

theorem heldFault_processBackground (c : Client) : c.processBackground.1.heldFault = none := by
  rw [processBackground_fst]
  exact c.handles_processBackground.1.held

/-! ### Which faults the caller is told -/

/-- The faults that are published by a dealing. What was published is not there any more once it is
handled. -/
def publishes (c : Client) (x : Dealing) : List Fault :=
  let known := match x with
    | .other _ => c.session.events.length
    | .report | .keep => 0
  ((c.deal x).session.events.drop known).filterMap (·.fault?)

/-- The faults that are published by a row of dealings, in order. -/
def published : Client → List Dealing → List Fault
  | _, [] => []
  | c, x :: xs => c.publishes x ++ (c.deal x).published xs

/-- The faults that were published fall into the rows that were handled before a report each, those that
were handled since, and those that are not handled yet. The caller was told the oldest of each row that
was reported, and is to be told the oldest of those handled since. -/
def Accounts (c : Client) (published told : List Fault) : Prop :=
  ∃ (rows : List (List Fault)) (since : List Fault),
    published = rows.flatten ++ since ++ c.session.events.filterMap (·.fault?) ∧
      told = rows.filterMap List.head? ∧ c.heldFault = since.head?

variable {fs ts : List Fault}

theorem heldFault_deed (c : Client) {x : Deed} (hx : x.quiet = true) :
    (c.deed x).heldFault = c.heldFault := by
  cases x with
  | handle | hold | close | refuse | stop | failCallbacks => cases hx
  | commitAsync offsets =>
    simp only [deed, commitAsync, ifOpen]
    split <;> rfl
  | round =>
    rw [deed]
    split <;> rfl
  | submit | listen | outside => rfl

/-- A caller that keeps the first fault differs from one that is told it in nothing else. -/
theorem processAndHold_eq (c : Client) :
    c.processAndHold = { c.processBackground.1 with
      heldFault := c.heldFault.or (c.session.events.filterMap (·.fault?)).head? } := by
  have hanswer := c.handles_processBackground.2
  have hheld := c.heldFault_processBackground
  unfold processAndHold
  generalize c.processBackground = r at hanswer hheld ⊢
  obtain ⟨d, answer⟩ := r
  obtain rfl : answer = _ := hanswer
  have hnone : d = { d with heldFault := none } := by
    rw [← hheld]
  cases c.heldFault.or (c.session.events.filterMap (·.fault?)).head? with
  | none => exact hnone
  | some f =>
    show { d with heldFault := some (d.heldFault.getD f) } = _
    rw [show d.heldFault = none from hheld]
    rfl

theorem sound_deal (hc : c.Sound) {x : Dealing} (hx : x.proper = true) : (c.deal x).Sound := by
  obtain ⟨ds, hds, hd⟩ := c.leads_deal hx
  rw [hd]
  exact (upholds_does hc (not_mem_of_ordinary hds)).sound

/-- A proper dealing keeps the account. -/
theorem Accounts.deal (h : c.Accounts fs ts) (hc : c.Sound) {x : Dealing} (hx : x.proper = true) :
    (c.deal x).Accounts (fs ++ c.publishes x) (ts ++ c.told x) := by
  obtain ⟨rows, since, rfl, rfl, hheld⟩ := h
  have hoverall (queued : List Fault) :
      c.heldFault.or queued.head? = (since ++ queued).head? := by
    rw [hheld, List.head?_append]
  cases x with
  | other x =>
    obtain ⟨es, hes, -⟩ := (extends_deed hc hx).works.events
    have hnew : c.publishes (.other x) = es.filterMap (·.fault?) := by
      show ((c.deed x).session.events.drop c.session.events.length).filterMap _ = _
      rw [hes, List.drop_left]
    refine ⟨rows, since, ?_, List.append_nil _, (c.heldFault_deed hx).trans hheld⟩
    show _ = _ ++ (c.deed x).session.events.filterMap _
    rw [hnew, hes, List.filterMap_append, List.append_assoc, List.append_assoc]
  | report =>
    -- The report ends a row.
    let queued := c.session.events.filterMap (·.fault?)
    have hnone : c.publishes .report = [] := by
      show (c.processBackground.1.session.events.drop 0).filterMap _ = _
      rw [events_processBackground]
      rfl
    have htold : c.told .report = ((since ++ queued).head?).toList := by
      rw [told, c.handles_processBackground.2, hoverall]
      cases (since ++ queued).head? <;> rfl
    refine ⟨rows ++ [since ++ queued], [], ?_, ?_, c.heldFault_processBackground⟩
    · show _ = _ ++ c.processBackground.1.session.events.filterMap _
      rw [hnone, events_processBackground]
      simp [queued]
    · rw [htold, List.filterMap_append]
      cases h : (since ++ queued).head? <;> simp [h]
  | keep =>
    let queued := c.session.events.filterMap (·.fault?)
    have hevents : c.processAndHold.session.events = [] := by
      rw [processAndHold_eq]
      exact c.events_processBackground
    have hnone : c.publishes .keep = [] := by
      show (c.processAndHold.session.events.drop 0).filterMap _ = _
      rw [hevents]
      rfl
    refine ⟨rows, since ++ queued, ?_, List.append_nil _, ?_⟩
    · show _ = _ ++ c.processAndHold.session.events.filterMap _
      rw [hnone, hevents]
      simp [queued]
    · show c.processAndHold.heldFault = _
      rw [processAndHold_eq]
      exact hoverall queued

/-- Proper dealings keep the account. -/
theorem Accounts.deals (h : c.Accounts fs ts) (hc : c.Sound) {xs : List Dealing}
    (hxs : ∀ x ∈ xs, x.proper = true) :
    (c.deals xs).Accounts (fs ++ c.published xs) (ts ++ c.hears xs) := by
  induction xs generalizing c fs ts with
  | nil =>
    rw [published, hears, List.append_nil, List.append_nil]
    exact h
  | cons x xs ih =>
    have hx := hxs x List.mem_cons_self
    have hrest := ih (h.deal hc hx) (sound_deal hc hx) fun y hy => hxs y (List.mem_cons_of_mem x hy)
    rw [List.append_assoc, List.append_assoc] at hrest
    exact hrest

/-! ### Runs of calls -/

/-- What happens on the side of the caller: a call, or a dealing between calls. -/
inductive Doing where
  | call (q : ClientCall)
  | deal (x : Dealing)

/-- Whether what was published is left alone or handled between calls, and never just taken. -/
def Doing.proper : Doing → Bool
  | call _ => true
  | deal x => x.proper

/-- The consumer after a doing, and the fault that the caller is told. -/
def goes (c : Client) : Doing → Client × Option Fault
  | .call q => c.answer q
  | .deal x => (c.deal x, (c.told x).head?)

end Client

end GroupConsumer
