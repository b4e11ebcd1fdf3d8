import GroupConsumer.Proofs.Run.Sound
import GroupConsumer.Proofs.Subscription.Inherits

/-!
# Patterns and metadata in a run

Two events have a pattern evaluated. Of everything else that happens, `Sound.keepsPattern_undergo` says
that what reads a pattern afterwards has read it before, with the same topics, and that no version is put
on record at which it would have been evaluated. The metadata change with the script of the collaborators
alone (`Sound.metadata_undergo`).
-/

namespace GroupConsumer

/-- A move of the member neither chooses a pattern nor replaces its topics. -/
theorem Move.inherits {m m' : Membership} {t : Trigger} {f : Option Fault} (h : Move m t m' f) :
    m.session.subscription.Inherits m'.session.subscription := by
  have heq {s : Subscription} (hs : s = m.session.subscription) :
      m.session.subscription.Inherits s := by
    rw [hs]
    exact .refl _
  have hunsubscribe {s : Subscription} (hs : s = m.session.subscription.unsubscribe) :
      m.session.subscription.Inherits s := by
    rw [hs]
    exact Subscription.inherits_unsubscribe _
  cases h with
  | rest | noted | joined | settled | refused | completed => exact .refl _
  | identified _ _ hs | retargeted _ _ hs | fenced _ _ _ _ hs | departing _ _ _ _ hs
    | committing _ _ _ hs | revoking _ _ _ hs => exact heq hs.subscription
  | finished _ hs | forgot _ hs | abandoned _ hs | departed _ _ hs =>
    exact hunsubscribe hs.subscription
  | vacated => exact hunsubscribe rfl
  | dropped => exact Subscription.inherits_released _
  | failed _ hs =>
    rw [hs.subscription]
    exact Subscription.inherits_released _
  | assigning _ _ _ _ _ hs =>
    rw [hs.subscription]
    exact Subscription.inherits_reassign _ _
  | applied => exact Subscription.inherits_reassign _ _

/-- Whether an event has the pattern evaluated. -/
def AppEvent.evaluates : AppEvent → Bool
  | .subscribePattern .. | .refreshPattern _ => true
  | _ => false

/-- Whether a cause has the pattern evaluated. -/
def Cause.evaluates : Cause → Bool
  | .received e => e.evaluates
  | _ => false

/-- Whether the collaborators change what they will do, the metadata they give included. -/
def Cause.isScript : Cause → Bool
  | .outside (.script _) => true
  | _ => false

/-- What the cluster tells of its topics. -/
def Processor.metadata (p : Processor) : Metadata := p.session.script.metadata

/-! ### What is kept of the metadata -/

/-- A cause that does not move the member leaves the metadata alone. -/
theorem Session.Unmoved.metadata {s t : Session} {c : Cause} (h : s.Unmoved c t)
    (hc : c.isScript = false) (ht : c ≠ .told) : t.script.metadata = s.script.metadata := by
  cases c with
  | outside o =>
    obtain rfl : t = s.undergo o := h
    cases o with
    | script x => cases hc
    | _ => rfl
  | told => exact absurd rfl ht
  | reported fs => exact Grows.metadata h
  | received | polled | heard | advanced | pollDone | lookups | deferred | drained =>
    obtain ⟨cs, h⟩ := h
    exact h.metadata

theorem Turn.metadata {p q : Processor} {x : Member} {c : Cause} (h : Turn p x c q)
    (hc : c.isScript = false) (ht : c ≠ .told) : q.metadata = p.metadata := by
  cases h with
  | still _ _ _ hs | noticed _ _ _ hs | picked _ _ _ _ hs => exact hs.metadata hc ht
  | moved _ _ h _ hs =>
    obtain ⟨es, cs, hg⟩ := h.grows
    exact hs.grows.metadata.trans hg.metadata

namespace Processor

variable {p q r : Processor} {x : Member} {c : Cause} {I : List SlotId} {D : List Deferral}

theorem metadata_publishSnapshot (p : Processor) : p.publishSnapshot.metadata = p.metadata := by
  unfold publishSnapshot
  split
  · split
    · exact Session.metadata_giveSnapshot _ _
    · rfl
  · rfl

/-- The metadata change with the script alone. -/
theorem Sound.metadata_undergo (h : p.Sound x) (hc : c.isScript = false) :
    (p.undergo c).metadata = p.metadata := by
  by_cases ht : c = .told
  · rw [ht]
    exact metadata_publishSnapshot p
  · exact (h.turn c).metadata hc ht

/-! ### What is kept of an evaluation -/

/-- The pattern and its topics are handed on, and at most it is forgotten at which version it was
evaluated. -/
structure KeepsPattern (p q : Processor) : Prop where
  subscription : p.subscription.Inherits q.subscription
  evaluated : ∀ v, q.evaluated = some v → p.evaluated = some v

theorem KeepsPattern.trans (h : KeepsPattern p q) (h' : KeepsPattern q r) : KeepsPattern p r :=
  ⟨h.subscription.trans h'.subscription, fun v hv => h.evaluated v (h'.evaluated v hv)⟩

/-- The subscription hands the pattern on, and it is known when it was evaluated. -/
theorem keepsPattern_of_evaluated (hs : p.subscription.Inherits q.subscription)
    (he : q.evaluated = p.evaluated) : KeepsPattern p q :=
  ⟨hs, fun _ hv => he.symm.trans hv⟩

theorem keepsPattern_of_subscription (hs : q.subscription = p.subscription)
    (he : q.evaluated = p.evaluated) : KeepsPattern p q :=
  keepsPattern_of_evaluated (by rw [hs]; exact .refl _) he

theorem Handles.evaluated (h : Handles I D p q) : q.evaluated = p.evaluated := by
  induction h with
  | rest => rfl
  | recorded _ _ ih | completed _ _ _ ih | delegated _ _ _ _ ih | askedFor _ _ _ _ _ ih =>
    exact ih

theorem Handles.keepsPattern (h : Handles I D p q) : KeepsPattern p q :=
  keepsPattern_of_subscription h.subscription h.evaluated

theorem keepsPattern_completeWith {t : Ticket} {s : Except Fault Subscription}
    (h : ∀ u, s = .ok u → p.subscription.Inherits u) : KeepsPattern p (p.completeWith t s) := by
  cases s with
  | ok u => exact keepsPattern_of_evaluated (h u rfl) rfl
  | error f => exact keepsPattern_of_subscription rfl rfl

theorem keepsPattern_subscribeTopics (p : Processor) (t : Ticket) (topics : SortedSet String) :
    KeepsPattern p (p.subscribeTopics t topics) := by
  unfold subscribeTopics
  split
  · exact keepsPattern_of_subscription rfl rfl
  · split
    · rename_i s changed hs
      let q : Processor := p.withSubscription fun _ => s
      have hq : KeepsPattern p q := keepsPattern_of_evaluated (Subscription.inherits_subscribe hs) rfl
      have hr : KeepsPattern q q.requestMetadata := (handles_requestMetadata q []).keepsPattern
      simp only
      split
      · exact (hq.trans hr).trans (keepsPattern_of_subscription rfl rfl)
      · exact hq.trans (keepsPattern_of_subscription rfl rfl)
    · exact keepsPattern_of_subscription rfl rfl

theorem keepsPattern_assign (p : Processor) (t : Ticket) (time : Int64) (parts : PartitionSet) :
    KeepsPattern p (p.assign t time parts) := by
  refine (handles_updateCommitTimer p [] time).keepsPattern.trans (keepsPattern_completeWith ?_)
  intro u hu
  obtain ⟨b, hb⟩ := exists_of_map_fst_eq_ok hu
  exact Subscription.inherits_assignFromUser hb

theorem keepsPattern_applyDeferred (p : Processor) (update : Deferral × Value) :
    KeepsPattern p (p.applyDeferred update) := by
  obtain ⟨d, v⟩ := update
  cases d with
  | positions t =>
    exact keepsPattern_of_evaluated (Subscription.inherits_takePositions _ _) rfl
  | committed t =>
    refine KeepsPattern.trans ?_ (handles_resetPositions _ t).keepsPattern
    exact keepsPattern_of_evaluated (Subscription.inherits_takeCommitted _ _) rfl
  | endOffsets isolation =>
    exact keepsPattern_of_evaluated
      (Subscription.inherits_takeEnds isolation p.subscription (lookupsOf v)) rfl

/-- An operation of the member hands the pattern on if it is a move. -/
theorem keepsPattern_onMember (hm : p.member = some x) {f : Membership → Step} {t : Trigger}
    (h : Move ⟨x, p.session⟩ t (f ⟨x, p.session⟩).membership (f ⟨x, p.session⟩).fault?) :
    KeepsPattern p (p.onMember f).1 := by
  rw [onMember_eq hm]
  exact keepsPattern_of_evaluated h.inherits rfl

/-- A leave, after which the ticket is linked to the slot of the leave. -/
theorem keepsPattern_leave (k : Processor) (hk : k.session = p.session) (hm : k.member = some x)
    (he : ∀ v, k.evaluated = some v → p.evaluated = some v) {y : Member} (hy : y.Coherent)
    {f : Membership → Membership × SlotId}
    (hf : f ⟨x, p.session⟩ = (⟨y, p.session⟩ : Membership).leave) (t : Ticket) (r : Processor) :
    KeepsPattern p ((k.leave t f).getD r) := by
  have hl := Membership.move_leave (m := ⟨y, p.session⟩) hy
  rw [leave_eq hm, hk, hf]
  exact ⟨hl.inherits, he⟩

theorem Sound.keepsPattern_receive (h : p.Sound x) {e : AppEvent} (he : e.evaluates = false) :
    KeepsPattern p (p.receive e) := by
  cases e with
  | subscribePattern | refreshPattern => cases he
  | resetOffset t parts strategy =>
    exact keepsPattern_completeWith fun _ hs => Subscription.inherits_requestReset hs
  | seek t tp offset epoch =>
    exact keepsPattern_completeWith fun _ hs => Subscription.inherits_seek hs
  | subscribeTopics t topics => exact keepsPattern_subscribeTopics p t topics
  | assign t time parts => exact keepsPattern_assign p t time parts
  | unsubscribe t =>
    refine keepsPattern_leave (p := p) { p with evaluated := none } rfl h.member ?_ h.coherent rfl t _
    intro v hv
    cases hv
  | leaveOnClose t =>
    have hy : Member.Coherent { x with closing := true } := h.coherent
    exact keepsPattern_leave p rfl h.member (fun _ => id) hy rfl t _
  | _ => exact (handles_receive p rfl).keepsPattern

/-- Nothing but its evaluation replaces a pattern or its topics. -/
theorem Sound.keepsPattern_undergo (h : p.Sound x) (hc : c.evaluates = false) :
    KeepsPattern p (p.undergo c) := by
  cases c with
  | outside o => cases o <;> exact keepsPattern_of_subscription rfl rfl
  | received e => exact h.keepsPattern_receive hc
  | polled => exact keepsPattern_onMember h.member (Membership.move_onPoll _)
  | heard o => exact keepsPattern_onMember h.member (Membership.move_onHeartbeat _ o)
  | advanced now =>
    exact keepsPattern_onMember h.member (Membership.move_advanceOnce _ now h.coherent)
  | pollDone time gate =>
    exact (handles_updateCommitTimer p [] time).keepsPattern.trans
      (keepsPattern_of_subscription rfl rfl)
  | lookups => exact keepsPattern_of_subscription rfl rfl
  | deferred update => exact keepsPattern_applyDeferred p update
  | drained =>
    show KeepsPattern p p.drainOutcomes.1
    unfold drainOutcomes
    split <;> exact keepsPattern_of_subscription rfl rfl
  | told =>
    refine keepsPattern_of_subscription (publishSnapshot_eq p).2.1 ?_
    show p.publishSnapshot.evaluated = p.evaluated
    unfold publishSnapshot
    split
    · split <;> rfl
    · rfl
  | reported fs => exact keepsPattern_of_subscription (Session.subscription_report _ _) rfl

end Processor

end GroupConsumer
