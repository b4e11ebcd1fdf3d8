import GroupConsumer.Proofs.Member.Agreement
import GroupConsumer.Proofs.Processor.Serves
import GroupConsumer.Proofs.Run.Cause

/-!
# What a cause does to the member and to the subscription

A part of an action leaves the member alone (`still`), lets it know of a new subscription
(`noticed`), replaces partitions that the caller has picked (`picked`), or is a trigger for it
(`moved`). `turn` says that there is nothing else, so that a statement about all runs has these four
cases.
-/

namespace GroupConsumer

/-- The trigger that a cause is for the member, if it is one. -/
def Cause.trigger? (p : Processor) : Cause → Option Trigger
  | .polled => some .polled
  | .heard o => some (.heard o)
  | .advanced now => some (.advanced (p.has .commit) now)
  | .received (.unsubscribe _) | .received (.leaveOnClose _) => some .left
  | _ => none

/-- The trigger tells the cause. -/
theorem Cause.eq_of_trigger? {p : Processor} {c : Cause} {t : Trigger}
    (h : c.trigger? p = some t) :
    match t with
    | .polled => c = .polled
    | .heard o => c = .heard o
    | .advanced commits now => c = .advanced now ∧ commits = p.has .commit
    | .left => ∃ e, c = .received e := by
  unfold trigger? at h
  split at h
  · cases h
    rfl
  · cases h
    rfl
  · cases h
    exact ⟨rfl, rfl⟩
  · cases h
    exact ⟨_, rfl⟩
  · cases h
    exact ⟨_, rfl⟩
  · cases h

/-- A leave is the last cause of an action. -/
theorem Processor.not_left_of_mem_dropLast {p : Processor} {a : Action} {c : Cause}
    (h : c ∈ (p.causes a).dropLast) (q : Processor) : c.trigger? q ≠ some .left := by
  have hmem := List.dropLast_subset _ h
  cases a with
  | outside o => cases h
  | progress now =>
    obtain rfl | ⟨u, rfl⟩ | rfl | ⟨o, rfl⟩ | rfl | rfl | ⟨fs, rfl⟩ := mem_progressCauses hmem <;>
      simp [Cause.trigger?]
  | process e =>
    cases e with
    | poll time gate =>
      obtain rfl | rfl | rfl | rfl | ⟨fs, rfl⟩ := mem_pollCauses hmem <;> simp [Cause.trigger?]
    | callbackDone method slot fault =>
      obtain rfl | ⟨now, rfl⟩ | ⟨fs, rfl⟩ := mem_callbackCauses hmem <;> simp [Cause.trigger?]
    | _ => cases h

/-- What a cause that does not move the member does to the session. -/
def Session.Unmoved (s : Session) (c : Cause) (t : Session) : Prop :=
  match c with
  | .outside o => t = s.undergo o
  | .told => Follows s t ∧ t.events = s.events
  | .reported fs => Grows s t (fs.map .fault) []
  | _ => ∃ cs, Grows s t [] cs

/-- The same state, stage, target and partitions. -/
structure Member.Like (x y : Member) : Prop where
  state : y.state = x.state
  stage : y.stage = x.stage
  target : y.target = x.target
  owned : y.owned = x.owned

/-- A member that closes is just as it was, as far as its group goes. -/
theorem Member.like_of_closing {x y : Member} (h : y = x ∨ y = { x with closing := true }) :
    x.Like y := by
  obtain rfl | rfl := h <;> exact ⟨rfl, rfl, rfl, rfl⟩

theorem Member.Coherent.of_closing {x y : Member} (hx : x.Coherent)
    (h : y = x ∨ y = { x with closing := true }) : y.Coherent := by
  obtain rfl | rfl := h <;> exact hx

theorem Member.leaveSlot_of_closing {x y : Member} (h : y = x ∨ y = { x with closing := true }) :
    y.leaveSlot = x.leaveSlot := by
  obtain rfl | rfl := h <;> rfl

/-- What became of a processor with the member `x`. -/
inductive Turn (p : Processor) (x : Member) (c : Cause) (q : Processor) : Prop
  | still (hc : c.trigger? p = none) (hx : q.member = some x)
      (hs : p.subscription.Alike q.subscription) (hg : p.session.Unmoved c q.session)
  | noticed (hc : c.trigger? p = none) (hx : q.member = some { x with subscriptionUpdated := true })
      (hs : p.subscription.Alike q.subscription ∨ p.subscription.Joins q.subscription)
      (hg : p.session.Unmoved c q.session)
  | picked {parts : PartitionSet} (hc : c.trigger? p = none) (hx : q.member = some x)
      (hf : p.subscription.form = .none ∨ p.subscription.form = .userAssigned)
      (hs : q.subscription =
        ({ p.subscription with form := .userAssigned } : Subscription).reassign parts)
      (hg : p.session.Unmoved c q.session)
  | moved {t : Trigger} {y : Member} {m : Membership} {f : Option Fault}
      (hc : c.trigger? p = some t) (hy : y = x ∨ y = { x with closing := true })
      (h : Move ⟨y, p.session⟩ t m f) (hx : q.member = some m.member)
      (hs : m.session.Becomes q.session m.session.subscription [] [])

namespace Processor

variable {p q : Processor} {x : Member} {c : Cause}

theorem Serves.turn (h : Serves p q) (hm : p.member = some x) (hc : c.trigger? p = none)
    (hg : (∃ cs, p.session.Grows q.session [] cs) → p.session.Unmoved c q.session) :
    Turn p x c q :=
  .still hc (h.member.trans hm) h.subscription (hg h.session)

theorem membership?_eq (hm : p.member = some x) : p.membership? = some ⟨x, p.session⟩ := by
  rw [membership?, hm]
  rfl

theorem onMember_eq (hm : p.member = some x) (f : Membership → Step) :
    p.onMember f =
      (p.withMembership (f ⟨x, p.session⟩).membership, (f ⟨x, p.session⟩).fault?.toList) := by
  rw [onMember, membership?_eq hm]

theorem leave_eq (hm : p.member = some x) (t : Ticket) (f : Membership → Membership × SlotId) :
    p.leave t f = some ((p.withMembership (f ⟨x, p.session⟩).1).withSession
      (·.chain (f ⟨x, p.session⟩).2 t.slot)) := by
  rw [leave, membership?_eq hm]
  rfl

/-- A request to leave makes the member leave, for good or not, and its ticket is linked to the answer
that the member gives. -/
theorem receive_leave (hm : p.member = some x) {e : AppEvent} (he : e.isLeave = true) :
    ∃ (t : Ticket) (y : Member) (q : Processor), e.ticket? = some t ∧
      (y = x ∨ y = { x with closing := true }) ∧
      q.session = (Membership.leave ⟨y, p.session⟩).1.session ∧
      q.member = some (Membership.leave ⟨y, p.session⟩).1.member ∧
      p.receive e = q.withSession (·.chain (Membership.leave ⟨y, p.session⟩).2 t.slot) := by
  cases e with
  | unsubscribe t =>
    refine ⟨t, x, ({ p with evaluated := none } : Processor).withMembership
      (Membership.leave ⟨x, p.session⟩).1, rfl, Or.inl rfl, rfl, rfl, ?_⟩
    show p.unsubscribe t = _
    rw [unsubscribe, leave_eq (p := { p with evaluated := none }) hm]
    rfl
  | leaveOnClose t =>
    refine ⟨t, { x with closing := true }, p.withMembership
      (Membership.leave ⟨{ x with closing := true }, p.session⟩).1, rfl, Or.inr rfl, rfl, rfl, ?_⟩
    show p.leaveOnClose t = _
    rw [leaveOnClose, leave_eq hm]
    rfl
  | _ => cases he

/-- An operation of the member is a turn if it is a move. -/
theorem turn_onMember (hm : p.member = some x) {f : Membership → Step} {t : Trigger}
    (hc : c.trigger? p = some t)
    (h : Move ⟨x, p.session⟩ t (f ⟨x, p.session⟩).membership (f ⟨x, p.session⟩).fault?) :
    Turn p x c (p.onMember f).1 := by
  rw [onMember_eq hm]
  exact .moved hc (Or.inl rfl) h rfl (Session.becomes_refl _)

/-! ### Events -/

section Received

variable {e : AppEvent}

theorem Serves.turn_received (h : Serves p q) (hm : p.member = some x)
    (hc : Cause.trigger? p (.received e) = none) : Turn p x (.received e) q :=
  h.turn hm hc id

/-- The member is told of a subscription that was taken over in `q`. -/
theorem turn_noticed (q : Processor) {r : Processor} (hm : p.member = some x)
    (hc : Cause.trigger? p (.received e) = none) (hq : q.member = p.member)
    (hs : p.subscription.Alike q.subscription ∨ p.subscription.Joins q.subscription)
    (hg : ∃ cs, p.session.Grows q.session [] cs) (hr : Serves q r) (t : Ticket) :
    Turn p x (.received e) (r.subscriptionUpdated.succeed t) := by
  have hx : r.member = some x := (hr.member.trans hq).trans hm
  obtain ⟨cs, hg⟩ := hg
  obtain ⟨cs', hg'⟩ := hr.session
  refine .noticed hc ?_ (hs.imp (·.trans hr.subscription) (·.trans_alike hr.subscription))
    ⟨(cs ++ cs') ++ [], (hg.trans hg').trans (Session.grows_complete _ _ _)⟩
  show r.member.map _ = _
  rw [hx]
  rfl

theorem turn_subscribeTopics (hm : p.member = some x)
    (hc : Cause.trigger? p (.received e) = none) (t : Ticket) (topics : SortedSet String) :
    Turn p x (.received e) (p.subscribeTopics t topics) := by
  rw [subscribeTopics, if_neg (by simp [hm])]
  split
  · rename_i s changed hs
    let q : Processor := p.withSubscription fun _ => s
    have hj : p.subscription.Joins q.subscription := Subscription.joins_subscribe hs
    have hg : p.session.Grows q.session [] [] := (Session.becomes_subscription _ s).grows
    simp only
    split
    · exact turn_noticed q hm hc rfl (Or.inr hj) ⟨[], hg⟩ (serves_requestMetadata q) t
    · exact turn_noticed q hm hc rfl (Or.inr hj) ⟨[], hg⟩ (Serves.refl q) t
  · exact (serves_fail p t _).turn_received hm hc

theorem turn_subscribePattern (hm : p.member = some x)
    (hc : Cause.trigger? p (.received e) = none) (t : Ticket) (source : String) :
    Turn p x (.received e) (p.subscribePattern t source) := by
  rw [subscribePattern, if_neg (by simp [hm])]
  split
  · exact (serves_fail p t _).turn_received hm hc
  · rename_i s hs
    let q : Processor := { p.withSubscription fun _ => s with evaluated := none }
    have hj : p.subscription.Joins q.subscription := Subscription.joins_subscribePattern hs
    have hg : p.session.Grows q.session [] [] := (Session.becomes_subscription _ s).grows
    exact turn_noticed q hm hc rfl (Or.inr hj) ⟨[], hg⟩
      ((serves_evaluatePattern q).trans (serves_requestMetadata _)) t

theorem turn_refreshPattern (hm : p.member = some x)
    (hc : Cause.trigger? p (.received e) = none) (t : Ticket) :
    Turn p x (.received e) (p.refreshPattern t) := by
  unfold refreshPattern
  split
  · simp only
    split
    · exact turn_noticed p hm hc rfl (Or.inl (Subscription.Alike.refl _))
        ⟨[], Session.Grows.refl _⟩ (serves_evaluatePattern p) t
    · exact ((serves_evaluatePattern p).trans (serves_succeed _ t)).turn_received hm hc
  · exact (serves_failMissing p t _ _).turn_received hm hc

theorem turn_assign (hm : p.member = some x) (hc : Cause.trigger? p (.received e) = none)
    (t : Ticket) (time : Int64) (parts : PartitionSet) :
    Turn p x (.received e) (p.assign t time parts) := by
  have hu := serves_updateCommitTimer p time
  unfold assign
  simp only
  rw [(handles_updateCommitTimer p [] time).subscription]
  cases hr : p.subscription.assignFromUser parts with
  | error f => exact (hu.trans (serves_fail _ t f)).turn_received hm hc
  | ok r =>
    obtain ⟨hf, hs⟩ := Subscription.assignFromUser_eq_ok hr
    obtain ⟨cs, hg⟩ := hu.session
    refine .picked hc (hu.member.trans hm) hf hs ⟨(cs ++ []) ++ [], ?_⟩
    exact (hg.trans (Session.becomes_subscription _ r.1).grows).trans (Session.grows_complete _ _ _)

/-- A leave, after which the ticket is linked to the slot of the leave. -/
theorem turn_leave (k : Processor) (hk : k.session = p.session) (hm : k.member = some x)
    (hc : Cause.trigger? p (.received e) = some .left) {y : Member}
    (hy : y = x ∨ y = { x with closing := true }) (hcoh : y.Coherent)
    {f : Membership → Membership × SlotId}
    (hf : f ⟨x, p.session⟩ = (⟨y, p.session⟩ : Membership).leave) (t : Ticket) (r : Processor) :
    Turn p x (.received e) ((k.leave t f).getD r) := by
  have hl := Membership.move_leave (m := ⟨y, p.session⟩) hcoh
  rw [leave_eq hm, hk, hf]
  exact .moved hc hy hl rfl ⟨rfl, Session.grows_chain _ _ _⟩

end Received

/-- What is received is a turn. -/
theorem turn_receive (hm : p.member = some x) (hx : x.Coherent) (e : AppEvent) :
    Turn p x (.received e) (p.receive e) := by
  cases e with
  | resetOffset t parts strategy =>
    exact (serves_completeWith (fun _ hs => Subscription.alike_requestReset hs) t).turn_received hm
      rfl
  | subscribeTopics t topics => exact turn_subscribeTopics hm rfl t topics
  | subscribePattern t source => exact turn_subscribePattern hm rfl t source
  | refreshPattern t => exact turn_refreshPattern hm rfl t
  | unsubscribe t =>
    exact turn_leave (p := p) { p with evaluated := none } rfl hm rfl (Or.inl rfl) hx rfl t _
  | assign t time parts => exact turn_assign hm rfl t time parts
  | seek t tp offset epoch =>
    exact (serves_completeWith (fun _ hs => Subscription.alike_seek hs) t).turn_received hm rfl
  | leaveOnClose t =>
    have hy : Member.Coherent { x with closing := true } := hx
    exact turn_leave p rfl hm rfl (Or.inr rfl) hy rfl t _
  | _ => exact (handles_receive p rfl).serves.turn_received hm rfl

/-! ### All causes -/

theorem publishSnapshot_of_has (hm : p.member = some x) (hh : p.has .heartbeat = true) :
    p.publishSnapshot =
      p.withSession (·.giveSnapshot (Membership.snapshot ⟨x, p.session⟩)) := by
  rw [publishSnapshot, membership?_eq hm]
  exact if_pos hh

theorem publishSnapshot_of_not_has (hm : p.member = some x) (hh : p.has .heartbeat = false) :
    p.publishSnapshot = p := by
  rw [publishSnapshot, membership?_eq hm]
  exact if_neg (by simp [hh])

/-- The heartbeat manager is told without any change to the member or to the subscription. -/
theorem publishSnapshot_eq (p : Processor) :
    p.publishSnapshot.member = p.member ∧ p.publishSnapshot.subscription = p.subscription ∧
      p.session.Follows p.publishSnapshot.session ∧
      p.publishSnapshot.session.events = p.session.events := by
  unfold publishSnapshot
  split
  · split
    · exact ⟨rfl, Session.subscription_giveSnapshot _ _, Session.follows_giveSnapshot _ _,
        Session.events_giveSnapshot _ _⟩
    · exact ⟨rfl, rfl, Session.Follows.refl _, rfl⟩
  · exact ⟨rfl, rfl, Session.Follows.refl _, rfl⟩

/-- What happens to a coherent member is a turn. -/
theorem turn (hm : p.member = some x) (hx : x.Coherent) (c : Cause) :
    Turn p x c (p.undergo c) := by
  cases c with
  | outside o =>
    refine .still rfl hm ?_ rfl
    cases o <;> exact Subscription.Alike.refl _
  | received e => exact turn_receive hm hx e
  | polled => exact turn_onMember hm rfl (Membership.move_onPoll _)
  | heard o => exact turn_onMember hm rfl (Membership.move_onHeartbeat _ o)
  | advanced now => exact turn_onMember hm rfl (Membership.move_advanceOnce _ now hx)
  | pollDone time gate =>
    have hg : Serves (p.updateCommitTimer time) (p.undergo (.pollDone time gate)) :=
      serves_session ⟨rfl, Session.grows_completeUnit _ _ _⟩
    exact ((serves_updateCommitTimer p time).trans hg).turn hm rfl id
  | lookups => exact (serves_lookups p).turn hm rfl id
  | deferred update => exact (serves_applyDeferred p update).turn hm rfl id
  | drained => exact (serves_drainOutcomes p).turn hm rfl id
  | told =>
    obtain ⟨hq, hs, hg⟩ := publishSnapshot_eq p
    exact .still rfl (hq.trans hm) (by rw [undergo, hs]; exact Subscription.Alike.refl _) hg
  | reported fs =>
    refine .still rfl hm ?_ (Session.grows_report p.session fs)
    show p.subscription.Alike (p.session.report fs).subscription
    rw [Session.subscription_report]
    exact Subscription.Alike.refl _

end Processor

/-! ### What every cause keeps -/

namespace Session

/-- The caller that takes its events leaves alone what the loop counts. -/
theorem tally_drainBackground (s : Session) : s.drainBackground.1.tally = s.tally := by
  have htimes (now : Int64) (qs : List (Queued BackgroundEvent)) (m : Metrics) :
      { qs.foldl (fun m q => m.addBackgroundTime (now - q.enqueued)) m with
        backgroundSize := 0, backgroundTime := 0 } =
          { m with backgroundSize := 0, backgroundTime := 0 } := by
    induction qs generalizing m with
    | nil => rfl
    | cons q qs ih => exact ih (m.addBackgroundTime (now - q.enqueued))
  exact htimes s.clock s.background.drain.1 (s.metrics.withBackgroundSize 0)

theorem follows_undergo (s : Session) (o : Outside) : Follows s (s.undergo o) := by
  cases o with
  | fresh => exact (grows_fresh s).follows
  | settle i o => exact (grows_complete s i o).follows
  | listen i l => exact (grows_listen s i l).follows
  | drain => exact follows_of_same rfl rfl rfl (tally_drainBackground s)
  | clock ms => exact follows_of_same rfl rfl rfl rfl
  | script x => exact follows_of_same rfl rfl rfl rfl

theorem lastSnapshot_undergo (s : Session) (o : Outside) :
    (s.undergo o).script.lastSnapshot = s.script.lastSnapshot := by
  cases o <;> rfl

/-- The session follows, and the heartbeat manager hears nothing unless it is told. -/
theorem Unmoved.follows {s t : Session} {c : Cause} (h : s.Unmoved c t) :
    Follows s t ∧ (c ≠ .told → t.script.lastSnapshot = s.script.lastSnapshot) := by
  have hgrows (h : ∃ cs, Grows s t [] cs) :
      Follows s t ∧ (c ≠ .told → t.script.lastSnapshot = s.script.lastSnapshot) := by
    obtain ⟨cs, h⟩ := h
    exact ⟨h.follows, fun _ => h.snapshot⟩
  cases c with
  | outside o =>
    obtain rfl : t = s.undergo o := h
    exact ⟨follows_undergo s o, fun _ => lastSnapshot_undergo s o⟩
  | told => exact ⟨h.1, fun hne => absurd rfl hne⟩
  | reported fs => exact ⟨Grows.follows h, fun _ => Grows.snapshot h⟩
  | received | polled | heard | advanced | pollDone | lookups | deferred | drained => exact hgrows h

end Session

namespace Turn

variable {p q : Processor} {x : Member} {c : Cause}

theorem follows (h : Turn p x c q) :
    p.session.Follows q.session ∧
      (c ≠ .told → q.session.script.lastSnapshot = p.session.script.lastSnapshot) := by
  cases h with
  | still _ _ _ hg | noticed _ _ _ hg | picked _ _ _ _ hg => exact hg.follows
  | moved _ _ h _ hs =>
    obtain ⟨es, cs, hg⟩ := h.grows
    have hq := hg.trans hs.grows
    exact ⟨hq.follows, fun _ => hq.snapshot⟩

/-- A coherent member is just as it was, as far as its group goes, or it has moved. -/
theorem still_or_moved (h : Turn p x c q) (hx : x.Coherent) {z : Member}
    (hz : q.member = some z) :
    (c.trigger? p = none ∧ x.Like z) ∨
      ∃ t y s f, c.trigger? p = some t ∧ x.Like y ∧ y.Coherent ∧ Move ⟨y, p.session⟩ t ⟨z, s⟩ f ∧
        s.Becomes q.session s.subscription [] [] := by
  cases h with
  | still hc hm | picked hc hm =>
    obtain rfl : x = z := Option.some.inj (hm.symm.trans hz)
    exact Or.inl ⟨hc, rfl, rfl, rfl, rfl⟩
  | noticed hc hm =>
    obtain rfl : _ = z := Option.some.inj (hm.symm.trans hz)
    exact Or.inl ⟨hc, rfl, rfl, rfl, rfl⟩
  | @moved t y m f hc hy hmove hm hs =>
    obtain rfl : m.member = z := Option.some.inj (hm.symm.trans hz)
    exact Or.inr ⟨t, y, m.session, f, hc, Member.like_of_closing hy, hx.of_closing hy, hmove, hs⟩

/-- What leads into a state. -/
theorem entered (h : Turn p x c q) (hx : x.Coherent) {z : Member} (hz : q.member = some z)
    (hs : z.state ≠ x.state) :
    match z.state with
    | .reconciling => ∃ o, c = .heard o
    | .fenced => c = .heard .fenced
    | .prepareLeaving => c.trigger? p = some .left
    | _ => True := by
  obtain ⟨-, hlike⟩ | ⟨t, y, s, f, hc, hlike, -, hmove, -⟩ := h.still_or_moved hx hz
  · exact absurd hlike.state hs
  · have he := hmove.entered (by rwa [hlike.state])
    cases hzs : z.state with
    | reconciling =>
      rw [hzs] at he
      obtain ⟨o, rfl⟩ := he
      exact ⟨o, Cause.eq_of_trigger? hc⟩
    | fenced =>
      rw [hzs] at he
      obtain rfl := he
      exact Cause.eq_of_trigger? hc
    | prepareLeaving =>
      rw [hzs] at he
      obtain rfl := he
      exact hc
    | _ => trivial

end Turn

end GroupConsumer
