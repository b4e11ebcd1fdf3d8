import GroupConsumer.Client.Api
import GroupConsumer.Proofs.Deadlines

/-!
# What a consumer does

Whatever a caller asks of a consumer comes down to a row of elementary deeds: an event is queued, what was
published is handled, the loop does a round, a slot is made or completed. The parts that calls are made of
are such rows, and but for those that handle what was published they are quiet (`Passes`). A row of deeds
may have rounds and outside events anywhere, so that what holds for all rows does not depend on how the
caller and the loop take turns.
-/

namespace GroupConsumer

/-- What happens to a consumer at once. -/
inductive Deed where
  /-- The caller queues an event. -/
  | submit (e : AppEvent)
  /-- The caller commits without waiting. -/
  | commitAsync (offsets : Option OffsetMap)
  /-- The caller handles what was published. -/
  | handle
  /-- The caller keeps a fault for a later call. -/
  | hold (f : Fault)
  /-- The caller takes up a listener. -/
  | listen (l : Option RebalanceListener)
  /-- The loop does a round, if it runs. -/
  | round
  /-- Something happens outside of the loop. -/
  | outside (o : Outside)
  /-- The consumer closes. -/
  | close
  /-- Further events are refused. -/
  | refuse
  /-- The loop stops, within a timeout. -/
  | stop (timeout : Int64)
  /-- The requests to run the listener that are left fail. -/
  | failCallbacks

namespace Deed

/-- A deed that is no part of closing. What was published is taken only to be handled. -/
def ordinary : Deed → Bool
  | .outside .drain | .close | .refuse | .stop _ | .failCallbacks => false
  | _ => true

/-- An ordinary deed that leaves alone what was published, and the fault that is kept. -/
def quiet : Deed → Bool
  | .handle | .hold _ => false
  | x => x.ordinary

theorem ordinary_of_quiet {x : Deed} (h : x.quiet = true) : x.ordinary = true := by
  cases x with
  | handle | hold => rfl
  | _ => exact h

/-- Only ordinary deeds. -/
def Ordinary (ds : List Deed) : Prop := ∀ d ∈ ds, d.ordinary = true

/-- A consumer closes by these deeds: whatever is done before further events are refused, whatever is
done until the loop stops, and then the requests that are left fail. -/
def Closing (ds : List Deed) : Prop :=
  ∃ before between timeout, Ordinary before ∧ Ordinary between ∧
    ds = .close :: before ++ .refuse :: between ++ [.stop timeout, .failCallbacks]

end Deed

namespace Client

open Deed

/-- The consumer after a deed. -/
def deed (c : Client) : Deed → Client
  | .submit e => (c.submit e).1
  | .commitAsync offsets => (c.commitAsync offsets).1
  | .handle => c.processBackground.1
  | .hold f => { c with heldFault := some f }
  | .listen l => { c with listener := l }
  | .round => if c.running then { c with loop := c.loop.runOnce.1 } else c
  | .outside o => c.withSession (·.undergo o)
  | .close => { c with closed := true }
  | .refuse => { c with loop := c.loop.refuse }
  | .stop timeout => { c with running := false, loop := c.loop.cleanUp timeout }
  | .failCallbacks => c.failCallbacks

/-- The consumer after a row of deeds. -/
def does (c : Client) (ds : List Deed) : Client := ds.foldl deed c

theorem does_nil (c : Client) : c.does [] = c := rfl

theorem does_append (c : Client) (ds es : List Deed) : c.does (ds ++ es) = (c.does ds).does es :=
  List.foldl_append

/-- Deeds of one kind make `d` of `c`. -/
def Row (kind : Deed → Bool) (c d : Client) : Prop :=
  ∃ ds : List Deed, (∀ x ∈ ds, kind x = true) ∧ d = c.does ds

/-- Ordinary deeds make `d` of `c`. -/
def Leads (c d : Client) : Prop := Row ordinary c d

/-- Quiet deeds make `d` of `c`. -/
def Passes (c d : Client) : Prop := Row quiet c d

variable {kind : Deed → Bool} {c d e : Client}

theorem Row.refl (c : Client) : Row kind c c := ⟨[], fun _ hx => absurd hx List.not_mem_nil, rfl⟩

theorem Row.trans (h : Row kind c d) (h' : Row kind d e) : Row kind c e := by
  obtain ⟨ds, hds, rfl⟩ := h
  obtain ⟨es, hes, rfl⟩ := h'
  refine ⟨ds ++ es, fun x hx => ?_, (does_append c ds es).symm⟩
  rcases List.mem_append.1 hx with hx | hx
  · exact hds x hx
  · exact hes x hx

theorem row_deed (c : Client) {x : Deed} (hx : kind x = true) : Row kind c (c.deed x) :=
  ⟨[x], fun y hy => by rwa [List.mem_singleton.1 hy], rfl⟩

theorem Passes.leads (h : c.Passes d) : c.Leads d := by
  obtain ⟨ds, hds, rfl⟩ := h
  exact ⟨ds, fun x hx => ordinary_of_quiet (hds x hx), rfl⟩

/-! ### Parts of calls -/

theorem passes_fresh (c : Client) : c.Passes (c.withSession fun _ => c.session.fresh.1) :=
  c.row_deed (x := .outside .fresh) rfl

theorem passes_issue (c : Client) (kind : AppEvent.Kind) (deadline : Int64) :
    c.Passes (c.issue kind deadline).1 := c.passes_fresh

theorem passes_submit (c : Client) (e : AppEvent) : c.Passes (c.submit e).1 :=
  c.row_deed (x := .submit e) rfl

theorem passes_failEvent (c : Client) (e : AppEvent) (f : Fault) :
    c.Passes { c with loop := c.loop.failEvent e f } := by
  unfold BackgroundLoop.failEvent
  split
  · rename_i t _
    exact c.row_deed (x := .outside (.settle t.slot (.error f))) rfl
  · exact .refl c

theorem passes_submitAfter (c : Client) (gate : SlotId) (e : AppEvent) (deadline : Int64) :
    c.Passes { c with loop := (c.loop.submitAfter gate e deadline).1 } := by
  unfold BackgroundLoop.submitAfter
  split
  · exact c.passes_submit e
  · exact c.passes_failEvent e _
  · exact c.passes_failEvent e _

theorem passes_settleWithin (c : Client) (hc : c.running = true) (quiet fuel left : Nat)
    (l : BackgroundLoop) :
    Passes { c with loop := l } { c with loop := BackgroundLoop.settleWithin quiet fuel left l } := by
  induction fuel generalizing left l with
  | zero => exact .refl _
  | succ fuel ih =>
    cases left with
    | zero => exact .refl _
    | succ left =>
      have hround : Passes { c with loop := l } (deed { c with loop := l } .round) := row_deed _ rfl
      rw [deed, if_pos hc] at hround
      simp only [BackgroundLoop.settleWithin]
      exact hround.trans (ih _ _)

theorem passes_settle (c : Client) : c.Passes c.settle := by
  unfold settle
  split
  · rename_i hc
    rw [BackgroundLoop.settle]
    exact c.passes_settleWithin hc _ _ _ c.loop
  · exact .refl c

theorem passes_wait (c : Client) (t : Ticket) : c.Passes (c.wait t).1 := by
  unfold wait
  simp only
  split
  · exact .refl c
  · exact c.passes_settle

/-- A call that is made of a submission and of what is done if the event is accepted. -/
theorem of_submit {α : Type} {P : Client → Prop} {e : AppEvent} {f : Client → Answered α}
    (hs : P (c.submit e).1) (h : P (f (c.submit e).1).1) :
    P (match c.submit e with
      | (c, .ok _) => f c
      | (c, .error fault) => (c, .error fault)).1 := by
  generalize c.submit e = r at h hs ⊢
  obtain ⟨d, _ | _⟩ := r
  · exact hs
  · exact h

/-- A call that a closed consumer refuses. -/
theorem of_ifOpen {α : Type} {P : Client → Prop} {f : Client → Answered α} (hc : P c)
    (h : P (f c).1) : P (c.ifOpen f).1 := by
  unfold ifOpen
  split
  · exact hc
  · exact h

theorem passes_call (c : Client) (kind : AppEvent.Kind) (deadline : Int64)
    (event : Ticket → AppEvent) : c.Passes (c.call kind deadline event).1 :=
  (c.passes_issue kind deadline).trans
    (of_submit (P := Passes _) (passes_submit _ _) ((passes_submit _ _).trans (passes_wait _ _)))

theorem passes_callListening (c : Client) (l : Option RebalanceListener) (kind : AppEvent.Kind)
    (event : Ticket → AppEvent) : c.Passes (c.callListening l kind event).1 := by
  have hcall := c.passes_call kind c.apiDeadline event
  unfold callListening
  generalize c.call kind c.apiDeadline event = r at hcall ⊢
  obtain ⟨d, _ | _⟩ := r
  · exact hcall
  · exact hcall.trans (d.row_deed (x := .listen l) rfl)

theorem passes_createFetchesAfter (c : Client) (gate : SlotId) (deadline : Int64) :
    c.Passes (c.createFetchesAfter gate deadline).1 := by
  have hissue := c.passes_issue .createFetches deadline
  unfold createFetchesAfter
  generalize c.issue .createFetches deadline = r at hissue ⊢
  obtain ⟨d, t⟩ := r
  simp only
  split
  · exact hissue.trans (d.passes_submitAfter gate _ deadline)
  · exact (hissue.trans d.passes_settle).trans (d.settle.passes_submitAfter gate _ deadline)

/-- A fault that a poll does not report is no step. -/
theorem passes_fetch (c : Client) (gate : SlotId) (deadline : Int64) :
    c.Passes (match c.createFetchesAfter gate deadline with
      | (c, .error f) => if passesPoll f then (c, .ok ()) else (c, .error f)
      | (c, .ok _) => (c, .ok ()) : Answered Unit).1 := by
  have h := c.passes_createFetchesAfter gate deadline
  generalize c.createFetchesAfter gate deadline = r at h ⊢
  obtain ⟨d, f | _⟩ := r
  · simp only
    split <;> exact h
  · exact h

theorem passes_pollEvents (c : Client) (timeout : Int64) : c.Passes (c.pollEvents timeout).1 := by
  unfold pollEvents
  simp only
  let gated := c.withSession fun _ => c.session.fresh.1
  let deadline := deadlineAfter c.session.clock timeout
  have hsubmit := c.passes_fresh.trans (gated.passes_submit (.poll c.session.clock c.session.fresh.2))
  generalize gated.submit (.poll c.session.clock c.session.fresh.2) = r at hsubmit ⊢
  obtain ⟨d, f | _⟩ := r
  · exact hsubmit
  · have hcall := hsubmit.trans (d.passes_call .checkPositions deadline .checkPositions)
    simp only
    generalize d.call .checkPositions deadline .checkPositions = r at hcall ⊢
    obtain ⟨e, f | _⟩ := r
    · simp only
      split
      · exact hcall.trans (e.passes_fetch c.session.fresh.2 deadline)
      · exact hcall
    · exact hcall.trans (e.passes_fetch c.session.fresh.2 deadline)

end Client

end GroupConsumer
