import GroupConsumer.Proofs.Run.Chronicle

/-!
# What is taken back was announced

A partition that the group takes back from a member goes in three steps: what was read is committed,
the caller is asked to run its listener, and the partition is removed once the listener has run. The
stage of the member says how far this has gone (`Member.Announced`), whatever other targets or leaves
come in between. So no partition is removed by a reconciliation or a leave unless the caller was
asked to give it up and has answered (`revocationDone_of_removed`).
-/

namespace GroupConsumer

/-- Whether the member hears that it has lost its place in the group. -/
def Cause.loses : Cause → Bool
  | .heard .fenced | .heard (.fatal _) => true
  | _ => false

namespace Moment

/-- The partition is assigned before and after. -/
def Keeps (y : Moment) (tp : TopicPartition) : Prop :=
  tp ∈ y.before.subscription.assigned ∧ tp ∈ y.after.subscription.assigned

/-- The partition is assigned before and not after. -/
def Removes (y : Moment) (tp : TopicPartition) : Prop :=
  tp ∈ y.before.subscription.assigned ∧ tp ∉ y.after.subscription.assigned

/-- The commit manager is asked to commit all that was consumed, and answers with the slot. -/
def Commits (y : Moment) (i : SlotId) : Prop :=
  ∃ deadline n, .commitBeforeRevocation y.before.subscription.consumed deadline n ∈ y.called ∧
    y.after.session.futures[n]? = some (.commitBeforeRevocation, i)

/-- The caller is asked to run its listener on a revocation of the partition. -/
def Revokes (y : Moment) (r : CallbackRequest) (tp : TopicPartition) : Prop :=
  .callbackNeeded r ∈ y.published ∧ r.method = .partitionsRevoked ∧ tp ∈ r.partitions

end Moment

/-- Since the partition was assigned the commit manager was asked to commit, and answered with the
slot. -/
def CommitAsked (tp : TopicPartition) (i : SlotId) (past : List Moment) : Prop :=
  Since (·.Keeps tp) (fun y _ => y.Keeps tp ∧ y.Commits i) past

/-- A commit was asked for since the partition was assigned, and is over. -/
def CommitDone (tp : TopicPartition) (s : Session) (past : List Moment) : Prop :=
  ∃ i, s.slots.isDone i = true ∧ CommitAsked tp i past

/-- Since the partition was assigned the caller was asked to run its listener on a revocation of it.
If `commits`, a commit had been asked for and was over by then. -/
def RevocationAsked (tp : TopicPartition) (r : CallbackRequest) (commits : Bool)
    (past : List Moment) : Prop :=
  Since (·.Keeps tp) (fun y earlier => y.Keeps tp ∧ y.Revokes r tp ∧
    (commits = true → CommitDone tp y.before.session earlier)) past

/-- The caller was asked to run its listener on a revocation of the partition, and has answered. -/
def RevocationDone (tp : TopicPartition) (commits : Bool) (s : Session) (past : List Moment) :
    Prop :=
  ∃ r : CallbackRequest, s.slots.isDone r.ticket.slot = true ∧ RevocationAsked tp r commits past

theorem RevocationDone.mono {tp : TopicPartition} {b b' : Bool} {s : Session} {past : List Moment}
    (h : RevocationDone tp b s past) (hb : b' = true → b = true) : RevocationDone tp b' s past := by
  obtain ⟨r, hd, hr⟩ := h
  refine ⟨r, hd, Since.mono (fun _ => id) ?_ hr⟩
  rintro y earlier ⟨hk, hr, hc⟩
  exact ⟨hk, hr, fun h' => hc (hb h')⟩

/-- What has been asked for at the stage of a member, about each partition that is to be given up. -/
def Member.Announced (x : Member) (commits : Bool) (past : List Moment) : Prop :=
  match x.stage with
  | .committing i target => ∀ tp ∈ x.owned.diff target, CommitAsked tp i past
  | .revoking i target => ∀ tp ∈ x.owned.diff target,
      ∃ r, r.ticket.slot = i ∧ RevocationAsked tp r commits past
  | .leavingRevoke i => ∀ tp ∈ x.owned, ∃ r, r.ticket.slot = i ∧ RevocationAsked tp r false past
  | .idle | .assigning .. | .lost _ => True

/-! ### Moves -/

section Moves

variable {m m' : Membership} {t : Trigger} {f : Option Fault} {tp : TopicPartition}
  {commits : Bool} {past : List Moment} {y : Moment}

theorem Member.Announced.like {x z : Member} (h : x.Announced commits past) (hz : x.Like z) :
    z.Announced commits past := by
  unfold Announced at h ⊢
  rwa [hz.stage, hz.owned]

theorem Member.announced_of_idle {x : Member} (hg : x.stage = .idle) : x.Announced commits past := by
  unfold Announced
  rw [hg]
  trivial

/-- What was asked for stays asked for as long as the partitions stay assigned. -/
theorem Member.Announced.same {x z : Member} (h : x.Announced commits past)
    (hg : z.stage = x.stage) (ho : z.owned = x.owned) (hk : ∀ tp ∈ x.owned, y.Keeps tp) :
    z.Announced commits (y :: past) := by
  unfold Announced at h ⊢
  rw [hg, ho]
  cases hx : x.stage with
  | committing i target =>
    rw [hx] at h
    intro tp htp
    exact Or.inr ⟨hk tp (SortedSet.mem_diff.1 htp).1, h tp htp⟩
  | revoking i target =>
    rw [hx] at h
    intro tp htp
    obtain ⟨r, hr, ha⟩ := h tp htp
    exact ⟨r, hr, Or.inr ⟨hk tp (SortedSet.mem_diff.1 htp).1, ha⟩⟩
  | leavingRevoke i =>
    rw [hx] at h
    intro tp htp
    obtain ⟨r, hr, ha⟩ := h tp htp
    exact ⟨r, hr, Or.inr ⟨hk tp htp, ha⟩⟩
  | idle | assigning | lost => trivial

/-- A commit that the move asks for has been asked for. -/
theorem commitAsked_cons {s : Session} {sub : Subscription} {deadline : Int64} {n : Nat}
    {i : SlotId} (hs : y.before.session.Becomes s sub []
      [.commitBeforeRevocation y.before.subscription.consumed deadline n])
    (hq : s.Grows y.after.session [] []) (hf : s.futures[n]? = some (.commitBeforeRevocation, i))
    (hk : y.Keeps tp) : CommitAsked tp i (y :: past) := by
  refine Or.inl ⟨hk, deadline, n, ?_, hq.follows.futures _ _ hf⟩
  rw [Moment.called_eq (hs.grows.trans hq)]
  exact List.mem_singleton_self _

/-- A revocation that the move asks for has been asked for. -/
theorem revocationAsked_cons {s : Session} {sub : Subscription} {r : CallbackRequest}
    (hs : y.before.session.Becomes s sub [.callbackNeeded r] [])
    (hq : s.Grows y.after.session [] []) (hm : r.method = .partitionsRevoked)
    (htp : tp ∈ r.partitions) (hk : y.Keeps tp)
    (hc : commits = true → CommitDone tp y.before.session past) :
    RevocationAsked tp r commits (y :: past) := by
  refine Or.inl ⟨hk, ⟨?_, hm, htp⟩, hc⟩
  rw [Moment.published_eq (hs.grows.trans hq)]
  exact List.mem_singleton_self _

/-- Every move keeps to what was asked for. -/
theorem Move.announced (h : Move m t m' f) (hc : m.member.Coherent)
    (ha : m.member.Announced commits past) (hy : y.before.session = m.session)
    (hq : m'.session.Grows y.after.session [] [])
    (hk : ∀ tp, tp ∈ m.member.owned → tp ∈ m'.member.owned → y.Keeps tp)
    (ht : ∀ b now, t = .advanced b now → b = commits) :
    m'.member.Announced commits (y :: past) := by
  cases h with
  | rest | noted | identified | retargeted | settled =>
    exact ha.same rfl rfl fun tp h => hk tp h h
  | joined | finished | fenced | dropped | failed | abandoned | departed | vacated | assigning
  | refused => trivial
  | forgot hs =>
    have hr : m.member.AtRest := by
      obtain hs | hs := hs <;> refine hc.atRest ?_ ?_ ?_ <;> rw [hs] <;> decide
    exact Member.announced_of_idle hr.1
  | departing _ _ hm hp hs =>
    rw [← hy] at hs
    intro tp htp
    refine ⟨_, rfl, revocationAsked_cons hs hq hm ?_ (hk tp htp htp) (by simp)⟩
    rwa [hp]
  | committing _ _ hf hs =>
    rw [← hy] at hs hf
    intro tp htp
    have ho := (SortedSet.mem_diff.1 htp).1
    exact commitAsked_cons hs hq hf (hk tp ho ho)
  | @revoking b now target r s hr hm hp hs =>
    obtain rfl := ht _ _ rfl
    intro tp htp
    have ho := (SortedSet.mem_diff.1 htp).1
    rw [← hy] at hs
    refine ⟨r, rfl, revocationAsked_cons hs hq hm (by rwa [hp]) (hk tp ho ho) ?_⟩
    rintro rfl
    obtain ⟨-, ⟨-, hn⟩ | ⟨i, hg, hd⟩⟩ := hr
    · cases hn
    · unfold Member.Announced at ha
      rw [hg] at ha
      exact ⟨i, by rwa [hy], ha tp htp⟩
  | applied | completed => exact Member.announced_of_idle (Member.stage_conclude _ _)

/-- A partition that a move takes from a member which has not lost its place was announced. -/
theorem Move.removes (h : Move m t m' f) (hc : m.member.Coherent)
    (ha : m.member.Announced commits past) (ho : tp ∈ m.member.owned)
    (ho' : tp ∉ m'.member.owned) (hs : m.member.state ≠ .fenced) (ht : t ≠ .heard .fenced)
    (ht' : ∀ f, t ≠ .heard (.fatal f)) :
    ∃ b, RevocationDone tp b m.session past ∧
      (m.member.state ≠ .prepareLeaving → b = commits) := by
  have hempty (h : m.member.owned = ∅) : False := by
    rw [h] at ho
    exact SortedSet.not_mem_empty tp ho
  have htakes {target : PartitionSet} (hn : m.TakesNext target) (htp : tp ∉ target) :
      ∃ b, RevocationDone tp b m.session past ∧
        (m.member.state ≠ .prepareLeaving → b = commits) := by
    have hd : tp ∈ m.member.owned.diff target := SortedSet.mem_diff.2 ⟨ho, htp⟩
    obtain ⟨-, he⟩ | ⟨i, hg, hdone⟩ := hn
    · -- A target that is taken over at once gives nothing up.
      rw [he] at hd
      exact absurd hd (SortedSet.not_mem_empty tp)
    · unfold Member.Announced at ha
      rw [hg] at ha
      obtain ⟨r, rfl, hr⟩ := ha tp hd
      exact ⟨commits, ⟨r, hdone, hr⟩, fun _ => rfl⟩
  cases h with
  | rest | noted | joined | identified | retargeted | settled | fenced | departing | committing
  | revoking | refused => exact absurd ho ho'
  | completed => exact absurd ho (by rwa [Member.owned_conclude] at ho')
  | finished hl =>
    obtain ⟨hl, -⟩ | ⟨-, rfl⟩ := hl
    · exact (hempty (hc.owned_eq_empty (Or.inr (Or.inr hl)))).elim
    · exact absurd rfl ht
  | dropped hd =>
    obtain ⟨rfl, -⟩ | ⟨b, now, i, -, hg, -⟩ := hd
    · exact absurd rfl ht
    · have hst := hc.state_of_stage
      rw [hg] at hst
      exact absurd hst hs
  | failed => exact absurd rfl (ht' _)
  | forgot hl =>
    exact (hempty (hc.owned_eq_empty (hl.imp_right Or.inl))).elim
  | abandoned hf => exact absurd hf hs
  | departed _ he => exact (hempty he).elim
  | vacated hg hd =>
    unfold Member.Announced at ha
    have hst := hc.state_of_stage
    rw [hg] at ha hst
    obtain ⟨r, rfl, hr⟩ := ha tp ho
    exact ⟨false, ⟨r, hd, hr⟩, fun hn => absurd hst hn⟩
  | assigning hn => exact htakes hn ho'
  | applied hn => exact htakes hn (by rwa [Member.owned_conclude] at ho')

end Moves

/-! ### Runs -/

section Runs

variable {p q : Processor} {k : Chronicle} {x z : Member} {c : Cause} {tp : TopicPartition}

/-- A partition of the member that stays assigned stays with the member. -/
theorem Turn.mem_owned (h : Turn p x c q) (hx : p.Sound x) (hz : q.Sound z) (ho : tp ∈ x.owned)
    (hk : tp ∈ q.subscription.assigned) : tp ∈ z.owned := by
  obtain ⟨-, hlike⟩ | ⟨t, y, s, f, -, -, -, hmove, hs⟩ := h.still_or_moved hx.coherent hz.member
  · rwa [hlike.owned]
  · have hq : q.subscription = s.subscription := hs.subscription
    obtain ha | he := hmove.isAuto
    · have ha' : q.subscription.isAuto = true := by
        rw [hq, ha]
        exact (hx.of_mem_owned ho).1
      have hzo : q.subscription.assigned = z.owned := hz.agrees.auto ha'
      rwa [← hzo]
    · rw [hq, he] at hk
      exact absurd hk (SortedSet.not_mem_empty tp)

/-- A member is not fenced as long as it does not lose its place. -/
theorem Turn.ne_fenced (h : Turn p x c q) (hx : x.Coherent) (hz : q.member = some z)
    (hs : x.state ≠ .fenced) (hc : c.loses = false) : z.state ≠ .fenced := by
  intro hf
  have he := h.entered hx hz fun hzx => hs (hzx.symm.trans hf)
  rw [hf] at he
  obtain rfl := he
  cases hc

/-- A member does not prepare to leave unless it is asked to leave. -/
theorem Turn.ne_prepareLeaving (h : Turn p x c q) (hx : x.Coherent) (hz : q.member = some z)
    (hs : x.state ≠ .prepareLeaving) (hc : c.trigger? p ≠ some .left) :
    z.state ≠ .prepareLeaving := by
  intro hp
  have he := h.entered hx hz fun hzx => hs (hzx.symm.trans hp)
  rw [hp] at he
  exact hc he

namespace Chronicle

/-- All through a run the stage of the member says what was asked for. -/
theorem Lived.announced {u : Setup} (h : Lived u.processor k) :
    ∃ x, k.present.Sound x ∧ x.Announced (k.present.has .commit) k.past := by
  induction h with
  | start => exact ⟨u.member, u.sound, trivial⟩
  | @undergo k h c ih =>
    obtain ⟨x, hx, ha⟩ := ih
    obtain ⟨z, hz⟩ := hx.undergo c
    refine ⟨z, hz, ?_⟩
    have hhas : (k.undergo c).present.has .commit = k.present.has .commit := hx.has_undergo c .commit
    have hk (tp : TopicPartition) (ho : tp ∈ x.owned) (ho' : tp ∈ z.owned) :
        Moment.Keeps ⟨k.present, c⟩ tp := ⟨(hx.of_mem_owned ho).2, (hz.of_mem_owned ho').2⟩
    rw [hhas]
    obtain ⟨-, hlike⟩ | ⟨t, y, s, f, hc, hlike, hy, hmove, hs⟩ :=
      (hx.turn c).still_or_moved hx.coherent hz.member
    · refine ha.same hlike.stage hlike.owned fun tp ho => hk tp ho ?_
      rwa [hlike.owned]
    · refine hmove.announced hy (ha.like hlike) rfl hs.grows ?_ ?_
      · intro tp ho ho'
        exact hk tp (by rwa [← hlike.owned]) ho'
      · rintro b now rfl
        exact (Cause.eq_of_trigger? hc).2

/-- What a cause takes from a member that has not lost its place was announced. -/
theorem revocationDone_of_undergo (hx : k.present.Sound x)
    (ha : x.Announced (k.present.has .commit) k.past) (ho : tp ∈ x.owned)
    (hn : tp ∉ (k.undergo c).present.subscription.assigned) (hs : x.state ≠ .fenced)
    (hc : c.loses = false) :
    ∃ b, RevocationDone tp b k.present.session k.past ∧
      (x.state ≠ .prepareLeaving → b = k.present.has .commit) := by
  obtain ⟨z, hz⟩ := hx.undergo c
  have ho' : tp ∉ z.owned := fun h => hn (hz.of_mem_owned h).2
  obtain ⟨-, hlike⟩ | ⟨t, y, s, f, ht, hlike, hy, hmove, -⟩ :=
    (hx.turn c).still_or_moved hx.coherent hz.member
  · rw [hlike.owned] at ho'
    exact absurd ho ho'
  · rw [← hlike.owned] at ho
    rw [← hlike.state] at hs ⊢
    refine hmove.removes hy (ha.like hlike) ho ho' hs ?_ ?_
    · rintro rfl
      have hce : c = .heard .fenced := Cause.eq_of_trigger? ht
      rw [hce] at hc
      cases hc
    · rintro f rfl
      have hce : c = .heard (.fatal f) := Cause.eq_of_trigger? ht
      rw [hce] at hc
      cases hc

/-- What a row of causes takes from a member was announced, as long as the member does not lose its
place and leaves in the last of them at most. -/
theorem Lived.revocationDone_of_follow {u : Setup} (h : Lived u.processor k)
    (hx : k.present.Sound x) (ho : tp ∈ x.owned) (hs : x.state ≠ .fenced) {cs : List Cause}
    (hn : tp ∉ (k.follow cs).present.subscription.assigned) (hc : ∀ c ∈ cs, c.loses = false)
    (hl : ∀ c ∈ cs.dropLast, ∀ p, c.trigger? p ≠ some .left) :
    ∃ later y earlier b, (k.follow cs).past = later ++ y :: (earlier ++ k.past) ∧ y.Removes tp ∧
      RevocationDone tp b y.before.session (earlier ++ k.past) ∧
      (x.state ≠ .prepareLeaving → b = k.present.has .commit) := by
  induction cs generalizing k x with
  | nil => exact absurd (hx.of_mem_owned ho).2 hn
  | cons c cs ih =>
    have hc' := hc c List.mem_cons_self
    by_cases hk : tp ∈ (k.undergo c).present.subscription.assigned
    · cases cs with
      | nil => exact absurd hk hn
      | cons d ds =>
        -- The partition is still there, so that the causes that follow must take it.
        obtain ⟨z, hz⟩ := hx.undergo c
        have hturn := hx.turn c
        have hleft := hl c List.mem_cons_self k.present
        obtain ⟨later, y, earlier, b, hp, hr, hd, hb⟩ := ih (h.undergo c) hz
          (hturn.mem_owned hx hz ho hk) (hturn.ne_fenced hx.coherent hz.member hs hc') hn
          (fun e he => hc e (List.mem_cons_of_mem _ he)) fun e he => hl e (List.mem_cons_of_mem _ he)
        refine ⟨later, y, earlier ++ [⟨k.present, c⟩], b, ?_, hr, ?_, ?_⟩
        · rw [follow_cons, hp, List.append_assoc]
          rfl
        · rw [List.append_assoc]
          exact hd
        · intro hne
          have hne' := hturn.ne_prepareLeaving hx.coherent hz.member hne hleft
          exact (hb hne').trans (hx.has_undergo c .commit)
    · obtain ⟨y, hy, ha⟩ := h.announced
      obtain rfl : x = y := Option.some.inj (hx.member.symm.trans hy.member)
      obtain ⟨b, hd, hb⟩ := revocationDone_of_undergo hx ha ho hk hs hc'
      obtain ⟨later, hp⟩ := past_follow (k.undergo c) cs
      exact ⟨later, ⟨k.present, c⟩, [], b, hp, ⟨(hx.of_mem_owned ho).2, hk⟩, hd, hb⟩

end Chronicle

end Runs

namespace Setup

/-- An action that takes a partition from a member which is reconciling or prepares to leave, and in
which it does not lose its place, takes it at a moment when the caller has run its listener on the
revocation; the caller was asked to since the partition was assigned. If the member was reconciling
and there is a commit manager, a commit of all that was consumed was over before the caller was
asked. -/
theorem revocationDone_of_removed (u : Setup) (as : List Action) (a : Action)
    (tp : TopicPartition) :
    let k := u.chronicle as
    k.present.subscription.isAuto = true →
    (k.present.state? = some .reconciling ∨ k.present.state? = some .prepareLeaving) →
    tp ∈ k.present.subscription.assigned → tp ∉ (k.present.act a).subscription.assigned →
    (∀ c ∈ k.present.causes a, c.loses = false) →
    ∃ later y earlier, (k.act a).past = later ++ y :: (earlier ++ k.past) ∧ y.Removes tp ∧
      RevocationDone tp (decide (k.present.state? = some .reconciling) && k.present.has .commit)
        y.before.session (earlier ++ k.past) := by
  intro k hauto hst htp hn hc
  obtain ⟨x, hx⟩ := u.sound_present as
  have hsx : k.present.state? = some x.state := Processor.state?_eq hx.member
  have ho : tp ∈ x.owned := by
    have ha : k.present.subscription.assigned = x.owned := hx.agrees.auto hauto
    rwa [← ha]
  have hs : x.state ≠ .fenced := by
    rw [hsx] at hst
    rintro hf
    rw [hf] at hst
    revert hst
    decide
  have hact : (k.follow (k.present.causes a)).present = k.present.act a := by
    rw [Chronicle.present_follow, hx.follow_causes]
  obtain ⟨later, y, earlier, b, hp, hr, hd, hb⟩ :=
    (u.lived as).revocationDone_of_follow hx ho hs (by rwa [hact]) hc
      fun c hc q => Processor.not_left_of_mem_dropLast hc q
  refine ⟨later, y, earlier, hp, hr, hd.mono fun h => ?_⟩
  obtain ⟨hrec, hcommit⟩ := Bool.and_eq_true_iff.1 h
  have hrx : x.state = .reconciling := by
    rw [hsx] at hrec
    exact Option.some.inj (of_decide_eq_true hrec)
  rw [hb (by rw [hrx]; decide), hcommit]

/-- The steps after which a member has been asked to give its first partition back. -/
def revokingSteps : List Action :=
  firstSteps ++ [listenerRun .partitionsAssigned 2,
    .outside (.script { outcomes := [.success "m" 1 (some ∅)] }), .progress 0,
    .outside (.settle 3 (.ok .done)), .progress 0]

/-- When the listener has run, the partition is removed. -/
theorem revocationDone_of_listenerRun :
    let k := firstSetup.chronicle revokingSteps
    let tp : TopicPartition := { topic := "t", number := 0 }
    ∃ later y earlier, (k.act (listenerRun .partitionsRevoked 4)).past =
        later ++ y :: (earlier ++ k.past) ∧ y.Removes tp ∧
      RevocationDone tp true y.before.session (earlier ++ k.past) := by
  intro k tp
  have hst : k.present.state? = some .reconciling := by decide +kernel
  have hcommit : k.present.has .commit = true := by decide +kernel
  have h := revocationDone_of_removed firstSetup revokingSteps (listenerRun .partitionsRevoked 4) tp
    (by decide +kernel) (Or.inl hst) (by decide +kernel) (by decide +kernel) (by decide +kernel)
  obtain ⟨later, y, earlier, hp, hr, hd⟩ := h
  exact ⟨later, y, earlier, hp, hr, hd.mono fun _ => by rw [hst, hcommit]; rfl⟩

end Setup

end GroupConsumer
