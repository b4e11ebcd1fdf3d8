import GroupConsumer.Proofs.Processor.Handles
import GroupConsumer.Proofs.Subscription.Assigned

/-!
# Events that leave the member alone

Most of what the processor does is none of the member's business: it handles something, moves a
position, or reads a pattern again. `Serves p q` says so: from `p` to `q` the member is the same, the
form and the partitions of the subscription are the same, and no event is published.
-/

namespace GroupConsumer.Processor

/-- The member, the form of the subscription and its partitions stay, and the caller hears nothing. -/
structure Serves (p q : Processor) : Prop where
  member : q.member = p.member
  subscription : p.subscription.Alike q.subscription
  session : ∃ cs, p.session.Grows q.session [] cs

theorem Serves.refl (p : Processor) : Serves p p :=
  ⟨rfl, Subscription.Alike.refl _, [], Session.Grows.refl _⟩

theorem Serves.trans {p q r : Processor} (h : Serves p q) (h' : Serves q r) : Serves p r := by
  obtain ⟨cs, hc⟩ := h.session
  obtain ⟨cs', hc'⟩ := h'.session
  exact ⟨h'.member.trans h.member, h.subscription.trans h'.subscription, cs ++ cs', hc.trans hc'⟩

/-- A change of the session alone, by which the subscription stays. -/
theorem serves_session {p : Processor} {s : Session} {cs : List Call}
    (h : p.session.Becomes s p.session.subscription [] cs) : Serves p { p with session := s } :=
  ⟨rfl, by rw [subscription, subscription, h.subscription]; exact Subscription.Alike.refl _, cs,
    h.grows⟩

theorem serves_withSubscription {p : Processor} {f : Subscription → Subscription}
    (h : p.subscription.Alike (f p.subscription)) : Serves p (p.withSubscription f) :=
  ⟨rfl, h, [], (Session.becomes_subscription p.session _).grows⟩

/-- What the processor only handles is none of the member's business. -/
theorem Handles.serves {I : List SlotId} {D : List Deferral} {p q : Processor}
    (h : Handles I D p q) : Serves p q :=
  ⟨h.member, by rw [h.subscription]; exact Subscription.Alike.refl _, h.grows⟩

theorem serves_fail (p : Processor) (t : Ticket) (f : Fault) : Serves p (p.fail t f) :=
  (handles_complete p t _).serves

theorem serves_succeed (p : Processor) (t : Ticket) : Serves p (p.succeed t) :=
  (handles_complete p t _).serves

theorem serves_failMissing (p : Processor) (t : Ticket) (c : Missing) (kind : AppEvent.Kind) :
    Serves p (p.failMissing t c kind) := serves_fail p t _

theorem serves_completeWith {p : Processor} {r : Except Fault Subscription}
    (h : ∀ s, r = .ok s → p.subscription.Alike s) (t : Ticket) : Serves p (p.completeWith t r) := by
  cases r with
  | ok s => exact (serves_withSubscription (h s rfl)).trans (serves_succeed _ t)
  | error f => exact serves_fail p t f

theorem serves_updateCommitTimer (p : Processor) (now : Int64) :
    Serves p (p.updateCommitTimer now) := (handles_updateCommitTimer p [] now).serves

theorem serves_requestMetadata (p : Processor) : Serves p p.requestMetadata :=
  (handles_requestMetadata p []).serves

theorem serves_applyDeferred (p : Processor) (update : Deferral × Value) :
    Serves p (p.applyDeferred update) := by
  obtain ⟨d, v⟩ := update
  cases d with
  | positions t =>
    exact (serves_withSubscription (Subscription.alike_takePositions _ _)).trans
      (handles_complete _ t _).serves
  | committed t =>
    exact (serves_withSubscription (Subscription.alike_takeCommitted _ _)).trans
      (handles_resetPositions _ t).serves
  | endOffsets isolation =>
    exact serves_withSubscription (f := fun s => takeEnds isolation s (lookupsOf v))
      (Subscription.alike_takeEnds isolation p.subscription (lookupsOf v))

/-! ### Patterns -/

theorem serves_evaluatePattern (p : Processor) : Serves p p.evaluatePattern.1 := by
  unfold evaluatePattern
  simp only
  split
  · exact Serves.refl p
  · obtain ⟨hm, hs, cs, hg⟩ := (Handles.recorded (I := []) (D := []) (p := p) .rest .listTopics).serves
    split
    · rename_i s changed hr
      refine ⟨hm, Subscription.alike_subscribeMatched hr, cs ++ [], ?_⟩
      exact hg.trans (Session.becomes_subscription _ s).grows
    · exact ⟨hm, hs, cs, hg⟩

/-! ### Background progress -/

theorem serves_lookups (p : Processor) :
    Serves p { p with session := p.session.takeDeferred.1 } :=
  serves_session ⟨rfl, Session.grows_takeDeferred p.session⟩

theorem serves_drainOutcomes (p : Processor) : Serves p p.drainOutcomes.1 := by
  unfold drainOutcomes
  split
  · exact serves_session ⟨rfl, Session.grows_script ⟨rfl, rfl, rfl⟩⟩
  · exact Serves.refl p

end GroupConsumer.Processor
