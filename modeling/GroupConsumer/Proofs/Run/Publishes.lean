import GroupConsumer.Proofs.Run.Proceeds

/-!
# What the caller gets to see of a run

Whatever the processor does, slots and outcomes stay, and the events that wait for the caller are only
added to. An event that has a ticket has a slot (`Publishes`). Besides, the processor leaves alone what
the loop itself counts (`Spares`).
-/

namespace GroupConsumer

namespace Session

/-- Slots and outcomes stay, and events are only added for the caller, with a slot for each ticket. -/
structure Publishes (s t : Session) : Prop where
  size : s.slots.cells.size ≤ t.slots.cells.size
  keeps : s.slots.Keeps t.slots
  events : ∃ es, t.events = s.events ++ es ∧ t.Ticketed es

/-- What is published is published, and the loop counts nothing. -/
structure Spares (s t : Session) : Prop extends Publishes s t where
  tally : t.tally = s.tally

variable {s t u : Session} {c : Cause}

/-- Slots stay, and so does what waits for the caller. -/
theorem publishes_of_slots (hsize : s.slots.cells.size ≤ t.slots.cells.size)
    (hs : s.slots.Keeps t.slots) (he : t.background = s.background) : s.Publishes t :=
  ⟨hsize, hs, [], by rw [events, he, List.append_nil, events], ticketed_nil t⟩

theorem Publishes.refl (s : Session) : s.Publishes s :=
  publishes_of_slots (Nat.le_refl _) (Slots.Keeps.refl _) rfl

theorem Publishes.trans (h : s.Publishes t) (h' : t.Publishes u) : s.Publishes u := by
  obtain ⟨es, he, ht⟩ := h.events
  obtain ⟨es', he', ht'⟩ := h'.events
  refine ⟨Nat.le_trans h.size h'.size, h.keeps.trans h'.keeps, es ++ es', ?_, ?_⟩
  · rw [he', he, List.append_assoc]
  · exact (ht.mono h'.size).append ht'

theorem Spares.refl (s : Session) : s.Spares s := ⟨.refl s, rfl⟩

theorem Spares.trans (h : s.Spares t) (h' : t.Spares u) : s.Spares u :=
  ⟨h.toPublishes.trans h'.toPublishes, h'.tally.trans h.tally⟩

theorem Grows.spares {es : List BackgroundEvent} {cs : List Call} (h : s.Grows t es cs) :
    s.Spares t := ⟨⟨h.follows.size, h.follows.slots, es, h.events, h.tickets⟩, h.follows.tally⟩

theorem Follows.spares (h : s.Follows t) (he : t.events = s.events) : s.Spares t :=
  ⟨⟨h.size, h.slots, [], by rw [he, List.append_nil], ticketed_nil t⟩, h.tally⟩

theorem Unmoved.spares (h : s.Unmoved c t) (hc : ∀ o, c ≠ .outside o) : s.Spares t := by
  have hgrows (h : ∃ cs, s.Grows t [] cs) : s.Spares t := by
    obtain ⟨cs, h⟩ := h
    exact h.spares
  cases c with
  | outside o => exact absurd rfl (hc o)
  | told => exact Follows.spares h.1 h.2
  | reported fs => exact Grows.spares h
  | received | polled | heard | advanced | pollDone | lookups | deferred | drained => exact hgrows h

end Session

theorem Turn.spares {p q : Processor} {x : Member} {c : Cause} (h : Turn p x c q)
    (hc : ∀ o, c ≠ .outside o) : p.session.Spares q.session := by
  cases h with
  | still _ _ _ hg | noticed _ _ _ hg | picked _ _ _ _ hg => exact hg.spares hc
  | moved _ _ h _ hs =>
    obtain ⟨es, cs, hg⟩ := h.grows
    exact (hg.trans hs.grows).spares

namespace Processor

variable {p q : Processor} {c : Cause}

theorem Serves.spares (h : Serves p q) : p.session.Spares q.session := by
  obtain ⟨cs, hg⟩ := h.session
  exact hg.spares

theorem spares_completeWith (p : Processor) (t : Ticket) (r : Except Fault Subscription) :
    p.session.Spares (p.completeWith t r).session := by
  cases r with
  | ok s =>
    have hs := (Session.becomes_subscription p.session s).grows.spares
    exact hs.trans (serves_succeed (p.withSubscription fun _ => s) t).spares
  | error f => exact (serves_fail p t f).spares

/-- Also without a group nothing is taken from the caller or counted by the loop. -/
theorem spares_receive_of_none (hm : p.member = none) (e : AppEvent) :
    p.session.Spares (p.receive e).session := by
  cases e with
  | resetOffset t | seek t => exact spares_completeWith p t _
  | assign t time parts =>
    exact (serves_updateCommitTimer p time).spares.trans (spares_completeWith _ t _)
  | subscribeTopics t topics =>
    show p.session.Spares (p.subscribeTopics t topics).session
    rw [subscribeTopics, if_pos (by simp [hm])]
    exact (serves_failMissing p t _ _).spares
  | subscribePattern t source =>
    show p.session.Spares (p.subscribePattern t source).session
    rw [subscribePattern, if_pos (by simp [hm])]
    exact (serves_failMissing p t _ _).spares
  | refreshPattern t =>
    show p.session.Spares (p.refreshPattern t).session
    have he := (serves_evaluatePattern p).spares
    unfold refreshPattern
    split
    · simp only
      split
      · exact he.trans (serves_succeed p.evaluatePattern.1.subscriptionUpdated t).spares
      · exact he.trans (serves_succeed p.evaluatePattern.1 t).spares
    · exact (serves_failMissing p t _ _).spares
  | unsubscribe t =>
    show p.session.Spares (p.unsubscribe t).session
    rw [unsubscribe_of_none hm]
    have hs := (Session.becomes_subscription p.session p.session.subscription.unsubscribe).grows.spares
    exact hs.trans (serves_succeed
      (({ p with evaluated := none } : Processor).withSubscription (·.unsubscribe)) t).spares
  | leaveOnClose t =>
    show p.session.Spares (p.leaveOnClose t).session
    rw [leaveOnClose_of_none hm]
    exact (serves_succeed p t).spares
  | _ => exact (handles_receive p rfl).serves.spares

theorem spares_undergo_of_none (hm : p.member = none) (hc : ∀ o, c ≠ .outside o) :
    p.session.Spares (p.undergo c).session := by
  cases c with
  | outside o => exact absurd rfl (hc o)
  | received e => exact spares_receive_of_none hm e
  | polled | heard | advanced =>
    rw [undergo, onMember_of_none hm]
    exact .refl _
  | pollDone time gate =>
    exact (serves_updateCommitTimer p time).spares.trans (Session.grows_completeUnit _ _ _).spares
  | lookups => exact (serves_lookups p).spares
  | deferred update => exact (serves_applyDeferred p update).spares
  | drained => exact (serves_drainOutcomes p).spares
  | told =>
    obtain ⟨-, -, hf, he⟩ := publishSnapshot_eq p
    exact hf.spares he
  | reported fs => exact (Session.grows_report p.session fs).spares

/-- The processor takes nothing from the caller, and leaves alone what the loop counts. -/
theorem Steady.spares (hp : p.Steady) (hc : ∀ o, c ≠ .outside o) :
    p.session.Spares (p.undergo c).session := by
  cases hm : p.member with
  | none => exact spares_undergo_of_none hm hc
  | some x => exact ((hp x hm).turn c).spares hc

theorem Steady.spares_follow (hp : p.Steady) {cs : List Cause}
    (hcs : ∀ c ∈ cs, ∀ o, c ≠ .outside o) : p.session.Spares (p.follow cs).session := by
  induction cs generalizing p with
  | nil => exact .refl _
  | cons c cs ih =>
    exact (hp.spares (hcs c List.mem_cons_self)).trans
      (ih (hp.undergo c) fun d hd => hcs d (List.mem_cons_of_mem _ hd))

/-- What happens outside is no part of what the processor does. -/
theorem ne_outside_of_mem_causes {a : Action} (ha : ∀ o, a ≠ .outside o) (h : c ∈ p.causes a)
    (o : Outside) : c ≠ .outside o := by
  rintro rfl
  cases a with
  | outside o => exact ha o rfl
  | progress now =>
    rcases mem_progressCauses h with h | ⟨u, h⟩ | h | ⟨o, h⟩ | h | h | ⟨fs, h⟩ <;> cases h
  | process e =>
    cases e with
    | poll time gate =>
      rcases mem_pollCauses h with h | h | h | h | ⟨fs, h⟩ <;> cases h
    | callbackDone method slot fault =>
      rcases mem_callbackCauses h with h | ⟨now, h⟩ | ⟨fs, h⟩ <;> cases h
    | _ => cases List.mem_singleton.1 h

theorem Steady.spares_act (hp : p.Steady) {a : Action} (ha : ∀ o, a ≠ .outside o) :
    p.session.Spares (p.act a).session := by
  rw [← hp.follow_causes a]
  exact hp.spares_follow fun c hc => ne_outside_of_mem_causes ha hc

end Processor

end GroupConsumer
