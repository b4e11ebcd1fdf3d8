import GroupConsumer.Proofs.Slot.Leads

/-!
# What a session keeps and what it gains

`Follows s t`: no slot is lost, outcomes stay, the answers to earlier calls stay on file, no manager
comes or goes and the loop counts nothing. It holds from a session to what the processor makes of
it. `Grows s t es cs` says more: exactly the events `es` were published, each with a slot if it has a
ticket, exactly the calls `cs` were made, the heartbeat manager was told nothing, and the metadata of the
cluster are the same. Every operation
by which the loop acts on the world around it grows the session by what its name says.
-/

namespace GroupConsumer

namespace BackgroundEvent

/-- The fault that the event tells the caller of, if it tells of one. -/
def fault? : BackgroundEvent → Option Fault
  | fault f => some f
  | callbackNeeded _ | tasksCallbackNeeded _ | groupMetadata .. => none

/-- The request to run the rebalance listener, if the event is one. -/
def request? : BackgroundEvent → Option CallbackRequest
  | callbackNeeded r => some r
  | fault _ | tasksCallbackNeeded _ | groupMetadata .. => none

/-- The id and the epoch that an event tells the caller of. -/
def identity? : BackgroundEvent → Option (String × Int)
  | groupMetadata memberId epoch => some (memberId, epoch)
  | fault _ | callbackNeeded _ | tasksCallbackNeeded _ => none

end BackgroundEvent

/-- What the cluster tells of its topics: whether it can be asked, the version, and the topics. -/
structure Metadata where
  present : Bool
  version : UInt64
  topics : List String

/-- What the cluster tells of its topics. -/
def Script.metadata (s : Script) : Metadata := ⟨s.hasMetadata, s.metadataVersion, s.metadataTopics⟩

namespace Session

/-- The events that wait for the caller, in order. -/
def events (s : Session) : List BackgroundEvent := s.background.waiting.map (·.item)

/-- The metrics apart from those of background events. Only the loop itself writes them. -/
def tally (s : Session) : Metrics := { s.metrics with backgroundSize := 0, backgroundTime := 0 }

/-- Every event that has a ticket has a slot. -/
def Ticketed (s : Session) (es : List BackgroundEvent) : Prop :=
  ∀ e ∈ es, ∀ t, e.ticket? = some t → t.slot < s.slots.cells.size

/-- Slots and outcomes stay, the answers to calls stay on file, no manager comes or goes, and the loop
counts nothing. -/
structure Follows (s t : Session) : Prop where
  size : s.slots.cells.size ≤ t.slots.cells.size
  slots : s.slots.Keeps t.slots
  tally : t.tally = s.tally
  managers : t.script.managers = s.script.managers
  futures : ∀ (n : Nat) (e : Method × SlotId), s.futures[n]? = some e → t.futures[n]? = some e

/-- A session that follows and has gained the events `es` and the calls `cs`. -/
structure Grows (s t : Session) (es : List BackgroundEvent) (cs : List Call) : Prop where
  follows : Follows s t
  snapshot : t.script.lastSnapshot = s.script.lastSnapshot
  metadata : t.script.metadata = s.script.metadata
  events : t.events = s.events ++ es
  tickets : t.Ticketed es
  calls : t.calls.toList = s.calls.toList ++ cs

theorem ticketed_nil (s : Session) : s.Ticketed [] := fun _ h => absurd h List.not_mem_nil

theorem Ticketed.mono {s t : Session} {es : List BackgroundEvent} (h : s.Ticketed es)
    (hs : s.slots.cells.size ≤ t.slots.cells.size) : t.Ticketed es :=
  fun e he r hr => Nat.lt_of_lt_of_le (h e he r hr) hs

theorem Ticketed.append {s : Session} {es es' : List BackgroundEvent} (h : s.Ticketed es)
    (h' : s.Ticketed es') : s.Ticketed (es ++ es') := by
  intro e he
  rcases List.mem_append.1 he with he | he
  · exact h e he
  · exact h' e he

/-- A change of neither the slots nor the managers, nor of what is on file or counted by the loop. -/
theorem follows_of_same {s t : Session} (hs : t.slots = s.slots)
    (hm : t.script.managers = s.script.managers) (hf : t.futures = s.futures)
    (hr : t.tally = s.tally) : Follows s t where
  size := Nat.le_of_eq (by rw [hs])
  slots := by
    rw [hs]
    exact Slots.Keeps.refl _
  tally := hr
  managers := hm
  futures n e h := by rwa [hf]

/-- A change of the slots alone. -/
theorem follows_of_slots {s : Session} {slots : Slots Value Deferral} (hk : s.slots.Keeps slots)
    (hsize : s.slots.cells.size ≤ slots.cells.size) : Follows s { s with slots } :=
  ⟨hsize, hk, rfl, rfl, fun _ _ => id⟩

theorem Follows.refl (s : Session) : Follows s s := follows_of_same rfl rfl rfl rfl

theorem Follows.trans {s t u : Session} (h : Follows s t) (h' : Follows t u) : Follows s u where
  size := Nat.le_trans h.size h'.size
  slots := h.slots.trans h'.slots
  tally := h'.tally.trans h.tally
  managers := h'.managers.trans h.managers
  futures n e he := h'.futures n e (h.futures n e he)

theorem Grows.refl (s : Session) : Grows s s [] [] :=
  ⟨Follows.refl s, rfl, rfl, by simp, ticketed_nil s, by simp⟩

theorem Grows.trans {s t u : Session} {es es' : List BackgroundEvent} {cs cs' : List Call}
    (h : Grows s t es cs) (h' : Grows t u es' cs') : Grows s u (es ++ es') (cs ++ cs') where
  follows := h.follows.trans h'.follows
  snapshot := h'.snapshot.trans h.snapshot
  metadata := h'.metadata.trans h.metadata
  events := by rw [h'.events, h.events, List.append_assoc]
  tickets := (h.tickets.mono h'.follows.size).append h'.tickets
  calls := by rw [h'.calls, h.calls, List.append_assoc]

/-- A change by which the session follows, without an event or a call. -/
theorem Follows.grows {s t : Session} (h : Follows s t)
    (hs : t.script.lastSnapshot = s.script.lastSnapshot)
    (hm : t.script.metadata = s.script.metadata) (he : t.background = s.background)
    (hc : t.calls = s.calls) : Grows s t [] [] where
  follows := h
  snapshot := hs
  metadata := hm
  events := by rw [events, he, List.append_nil, events]
  tickets := ticketed_nil t
  calls := by rw [hc, List.append_nil]

/-- A change of the slots alone. -/
theorem grows_slots {s : Session} {slots : Slots Value Deferral} (h : s.slots.Keeps slots)
    (hsize : s.slots.cells.size ≤ slots.cells.size) : Grows s { s with slots } [] [] :=
  (follows_of_slots h hsize).grows rfl rfl rfl rfl

/-- A session that has grown and whose subscription is `sub`. -/
structure Becomes (s t : Session) (sub : Subscription) (es : List BackgroundEvent)
    (cs : List Call) : Prop where
  subscription : t.subscription = sub
  grows : Grows s t es cs

theorem becomes_refl (s : Session) : Becomes s s s.subscription [] [] := ⟨rfl, Grows.refl s⟩

/-- A change of the subscription alone. -/
theorem becomes_subscription (s : Session) (subscription : Subscription) :
    Becomes s { s with subscription } subscription [] [] :=
  ⟨rfl, (follows_of_same (s := s) (t := { s with subscription }) rfl rfl rfl rfl).grows rfl rfl
    rfl rfl⟩

theorem Becomes.trans {s t u : Session} {sub sub' : Subscription}
    {es es' : List BackgroundEvent} {cs cs' : List Call} (h : Becomes s t sub es cs)
    (h' : Becomes t u sub' es' cs') : Becomes s u sub' (es ++ es') (cs ++ cs') :=
  ⟨h'.subscription, h.grows.trans h'.grows⟩

/-! ### Slots -/

theorem grows_complete (s : Session) (i : SlotId) (o : Outcome Value) :
    Grows s (s.complete i o) [] [] :=
  grows_slots (Slots.keeps_settle _ _ _) (Slots.worksOn_settle s.slots i o).size

theorem grows_completeUnit (s : Session) (i : SlotId) (r : Except Fault Unit) :
    Grows s (s.completeUnit i r) [] [] := grows_complete s i _

theorem grows_listen (s : Session) (i : SlotId) (l : Listener Value Deferral) :
    Grows s { s with slots := s.slots.listen i l } [] [] :=
  grows_slots (Slots.keeps_listen _ _ _) (Slots.worksOn_listen s.slots i l).size

theorem grows_chain (s : Session) (i j : SlotId) : Grows s (s.chain i j) [] [] :=
  grows_listen s i _

theorem grows_holdFor (s : Session) (i : SlotId) (d : Deferral) (target : Option SlotId) :
    Grows s (s.holdFor i d target) [] [] := grows_listen s i _

theorem grows_fresh (s : Session) : Grows s s.fresh.1 [] [] :=
  grows_slots (Slots.keeps_fresh _) (Slots.worksOn_fresh s.slots fun _ => False).size

theorem grows_freshWith (s : Session) (o : Outcome Value) : Grows s (s.freshWith o).1 [] [] :=
  (grows_fresh s).trans (grows_complete s.fresh.1 s.fresh.2 o)

theorem grows_takeDeferred (s : Session) : Grows s s.takeDeferred.1 [] [] :=
  grows_slots (Slots.keeps_of_cells rfl) (Nat.le_refl _)

/-! ### Events for the caller -/

/-- An event is published that has a slot if it has a ticket. -/
theorem grows_publish (s : Session) {e : BackgroundEvent} (he : s.Ticketed [e]) :
    Grows s (s.publish e) [e] [] where
  follows := follows_of_same rfl rfl rfl rfl
  snapshot := rfl
  metadata := rfl
  events := by
    show (s.background.add e s.clock).waiting.map (·.item) = _
    rw [Queue.waiting_add, List.map_append]
    rfl
  tickets := he
  calls := (List.append_nil _).symm

/-- An event without a ticket needs no slot. -/
theorem ticketed_of_none (s : Session) {e : BackgroundEvent} (he : e.ticket? = none) :
    s.Ticketed [e] := by
  intro e' he' t ht
  obtain rfl := List.mem_singleton.1 he'
  cases he.symm.trans ht

theorem grows_report (s : Session) (fs : List Fault) :
    Grows s (s.report fs) (fs.map .fault) [] := by
  induction fs generalizing s with
  | nil => exact Grows.refl s
  | cons f fs ih =>
    have hf : Grows s (s.publish (.fault f)) [.fault f] [] :=
      grows_publish s (ticketed_of_none s rfl)
    exact hf.trans (ih (s.publish (.fault f)))

@[simp] theorem subscription_report (s : Session) (fs : List Fault) :
    (s.report fs).subscription = s.subscription := by
  induction fs generalizing s with
  | nil => rfl
  | cons f fs ih => exact ih (s.publish (.fault f))

/-! ### Calls -/

theorem grows_record (s : Session) (c : Call) : Grows s (s.record c) [] [c] where
  follows := follows_of_same rfl rfl rfl rfl
  snapshot := rfl
  metadata := rfl
  events := (List.append_nil _).symm
  tickets := ticketed_nil _
  calls := Array.toList_push

/-- A script with the same managers and metadata, of which the heartbeat manager was told nothing
more. -/
theorem grows_script {s : Session} {script : Script}
    (h : script.managers = s.script.managers ∧ script.lastSnapshot = s.script.lastSnapshot ∧
      script.metadata = s.script.metadata) :
    Grows s { s with script } [] [] :=
  (follows_of_same (s := s) (t := { s with script }) rfl h.1 rfl rfl).grows h.2.1 h.2.2 rfl rfl

theorem nextReply_snd (s : Script) (m : Method) :
    (s.nextReply m).2.managers = s.managers ∧ (s.nextReply m).2.lastSnapshot = s.lastSnapshot ∧
      (s.nextReply m).2.metadata = s.metadata := ⟨rfl, rfl, rfl⟩

/-- The session in which a call has been recorded and its reply has been taken from the script. -/
def asked (s : Session) (m : Method) (call : Nat → Call) : Session :=
  ({ s.record (call s.futures.size) with script := (s.script.nextReply m).2 }).advance
    (((s.script.nextReply m).1 (call s.futures.size)).advance.getD 0)

theorem grows_asked (s : Session) (m : Method) (call : Nat → Call) :
    Grows s (s.asked m call) [] [call s.futures.size] := by
  have h₁ := grows_record s (call s.futures.size)
  have h₂ := grows_script (s := s.record (call s.futures.size)) (nextReply_snd s.script m)
  obtain ⟨hf, hs, hm, he, ht, hc⟩ := h₁.trans h₂
  exact ⟨⟨hf.size, hf.slots, hf.tally, hf.managers, hf.futures⟩, hs, hm, he, ht, hc⟩

/-- An answer is a slot of the session that was asked, which may be new; all else is as the call
left it. -/
theorem ask_eq (s : Session) (m : Method) (call : Nat → Call) :
    ∃ slots i, (s.asked m call).Grows { s.asked m call with slots } [] [] ∧
      s.ask m call =
        ({ s.asked m call with slots, futures := s.futures.push (m, i) }, i) := by
  unfold ask
  simp only
  split
  · exact ⟨_, _, grows_fresh _, rfl⟩
  · exact ⟨_, _, grows_freshWith _ _, rfl⟩
  · split
    · exact ⟨_, _, Grows.refl _, rfl⟩
    · exact ⟨_, _, grows_fresh _, rfl⟩

theorem grows_ask (s : Session) (m : Method) (call : Nat → Call) :
    Grows s (s.ask m call).1 [] [call s.futures.size] := by
  obtain ⟨slots, i, hk, he⟩ := ask_eq s m call
  obtain ⟨hf, hs, hm, hev, ht, hc⟩ := (grows_asked s m call).trans hk
  rw [he]
  refine ⟨⟨hf.size, hf.slots, hf.tally, hf.managers, fun n e h => ?_⟩, hs, hm, hev, ht, hc⟩
  obtain ⟨hn, rfl⟩ := Array.getElem?_eq_some_iff.1 (hf.futures n e h)
  exact Array.getElem?_push_lt hn

@[simp] theorem subscription_ask (s : Session) (m : Method) (call : Nat → Call) :
    (s.ask m call).1.subscription = s.subscription := by
  obtain ⟨slots, i, -, he⟩ := ask_eq s m call
  rw [he]
  rfl

/-- The answer to a call is filed under the number that the call carries. -/
theorem futures_ask (s : Session) (m : Method) (call : Nat → Call) :
    (s.ask m call).1.futures[s.futures.size]? = some (m, (s.ask m call).2) := by
  obtain ⟨slots, i, -, he⟩ := ask_eq s m call
  rw [he]
  exact Array.getElem?_push_size

/-- The answers on file are numbered. -/
theorem mem_futures {s : Session} {f : Method × SlotId} :
    f ∈ s.futures.toList ↔ ∃ n : Nat, s.futures[n]? = some f :=
  Array.mem_toList_iff.trans Array.mem_iff_getElem?

theorem mem_futures_ask (s : Session) (m : Method) (call : Nat → Call) :
    (m, (s.ask m call).2) ∈ (s.ask m call).1.futures.toList :=
  mem_futures.2 ⟨_, futures_ask s m call⟩

theorem Follows.mem_futures {s t : Session} (h : Follows s t) {f : Method × SlotId}
    (hf : f ∈ s.futures.toList) : f ∈ t.futures.toList := by
  obtain ⟨n, hn⟩ := Session.mem_futures.1 hf
  exact Session.mem_futures.2 ⟨n, h.futures n f hn⟩

/-! ### Snapshots -/

/-- A snapshot is recorded if it is new, it is the last one from then on, and time may pass. -/
theorem giveSnapshot_eq (s : Session) (snap : MemberSnapshot) :
    ∃ ms delays, s.giveSnapshot snap =
      { (if s.script.lastSnapshot ≠ some snap then s.record (.updateMembership snap) else s) with
        clock := s.clock + ms
        script := { s.script with delays, lastSnapshot := some snap } } := by
  have hdelay (x : Script) : ∃ ms delays, x.nextDelay snap = (ms, { x with delays }) := by
    unfold Script.nextDelay
    split
    · exact ⟨_, _, rfl⟩
    · split
      · exact ⟨_, _, rfl⟩
      · exact ⟨_, _, rfl⟩
  obtain ⟨ms, delays, hx⟩ := hdelay s.script
  refine ⟨ms, delays, ?_⟩
  unfold giveSnapshot
  simp only
  split
  · rw [show (s.record (.updateMembership snap)).script = s.script from rfl, hx]
    rfl
  · rw [hx]
    rfl

theorem follows_giveSnapshot (s : Session) (snap : MemberSnapshot) :
    Follows s (s.giveSnapshot snap) := by
  obtain ⟨ms, delays, he⟩ := giveSnapshot_eq s snap
  rw [he]
  split <;> exact follows_of_same rfl rfl rfl rfl

@[simp] theorem subscription_giveSnapshot (s : Session) (snap : MemberSnapshot) :
    (s.giveSnapshot snap).subscription = s.subscription := by
  obtain ⟨ms, delays, he⟩ := giveSnapshot_eq s snap
  rw [he]
  split <;> rfl

@[simp] theorem events_giveSnapshot (s : Session) (snap : MemberSnapshot) :
    (s.giveSnapshot snap).events = s.events := by
  obtain ⟨ms, delays, he⟩ := giveSnapshot_eq s snap
  rw [he]
  split <;> rfl

@[simp] theorem metadata_giveSnapshot (s : Session) (snap : MemberSnapshot) :
    (s.giveSnapshot snap).script.metadata = s.script.metadata := by
  obtain ⟨ms, delays, he⟩ := giveSnapshot_eq s snap
  rw [he]
  rfl

/-- What the heartbeat manager was given is the last it was given. -/
@[simp] theorem lastSnapshot_giveSnapshot (s : Session) (snap : MemberSnapshot) :
    (s.giveSnapshot snap).script.lastSnapshot = some snap := by
  obtain ⟨ms, delays, he⟩ := giveSnapshot_eq s snap
  rw [he]

end Session

end GroupConsumer
