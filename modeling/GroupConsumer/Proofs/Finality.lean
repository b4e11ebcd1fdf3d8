import GroupConsumer.Proofs.Ledger

/-!
# Closing is final

A consumer that closes makes its member leave for good. Whatever happens from then on, the member is on
its way out of the group, outside of it, or failed; it gets no partition that it has not owned, and the
caller does not hear of any that have been assigned (`parted_for_good`).
-/

namespace GroupConsumer

/-- A member that has been told to leave for good. -/
structure Member.Parted (x : Member) : Prop where
  closing : x.closing = true
  state : x.state ∈ [.unsubscribed, .prepareLeaving, .leaving, .fatal]

/-- From `x` to `z` the member only loses partitions, and of none that are assigned the caller is asked
to hear. -/
structure Member.Yields (x z : Member) (rs : List CallbackRequest) : Prop where
  owned : ∀ tp ∈ z.owned, tp ∈ x.owned
  requests : ∀ r ∈ rs, r.method ≠ .partitionsAssigned

/-- At this moment the member has been told to leave for good, and only loses partitions. -/
def Moment.Yields (y : Moment) : Prop :=
  ∃ x z, y.before.member = some x ∧ y.after.member = some z ∧ z.Parted ∧ x.Yields z y.requests

namespace Member

variable {x z : Member}

theorem Parted.not_isActive (h : x.Parted) : x.state.isActive = false := by
  obtain ⟨-, hs⟩ := h
  revert hs
  cases x.state <;> decide

theorem Parted.ne_fenced (h : x.Parted) : x.state ≠ .fenced := by
  obtain ⟨-, hs⟩ := h
  revert hs
  cases x.state <;> decide

end Member

namespace Move

variable {m m' : Membership} {t : Trigger} {f : Option Fault}

/-- A move keeps a member that has been told to leave for good so, and so does the leave itself. -/
theorem yields (h : Move m t m' f) (hc : m.member.Coherent) (hclosing : m.member.closing = true)
    (hp : m.member.Parted ∨ t = .left) {es : List BackgroundEvent} {cs : List Call}
    (hg : m.session.Grows m'.session es cs) :
    m'.member.Parted ∧ m.member.Yields m'.member (es.filterMap BackgroundEvent.request?) := by
  have hquiet {sub : Subscription} {cs' : List Call}
      (hs : m.session.Becomes m'.session sub [] cs') : es = [] := hg.events_unique hs.grows
  have hsame {sub : Subscription}
      (hs : m'.session = { m.session with subscription := sub }) : es = [] := by
    have hb := Session.becomes_subscription m.session sub
    rw [← hs] at hb
    exact hquiet hb
  -- Only the leave itself can find the member in its group.
  have hactive (ht : t ≠ .left) (ha : m.member.state.isActive = true) : False := by
    obtain hp | hp := hp
    · exact Bool.false_ne_true (hp.not_isActive.symm.trans ha)
    · exact ht hp
  have hreconciling (ht : t ≠ .left) (hs : m.member.state = .reconciling) : False :=
    hactive ht (by rw [hs]; rfl)
  have hempty : ∀ tp ∈ (∅ : PartitionSet), tp ∈ m.member.owned :=
    fun tp h => absurd h (SortedSet.not_mem_empty tp)
  cases h with
  | rest he =>
    obtain rfl := hsame rfl
    refine ⟨?_, fun _ h => h, by simp⟩
    obtain hp | rfl := hp
    · exact hp
    · obtain hs | hs := MemberState.eq_of_isLeaving he <;> exact ⟨hclosing, by simp [hs]⟩
  | noted =>
    obtain rfl := hsame rfl
    exact ⟨⟨hclosing, (hp.resolve_right (by simp)).state⟩, fun _ h => h, by simp⟩
  | joined hj => exact absurd hj.2.2 (by rw [hclosing]; decide)
  | identified ha | retargeted ha => exact (hactive (by simp) ha).elim
  | fenced ha => exact (hactive (by simp) ha).elim
  | settled hs => exact (hactive (by simp) (by rw [hs]; rfl)).elim
  | finished _ hs =>
    obtain rfl := hquiet hs
    exact ⟨⟨hclosing, by simp⟩, hempty, by simp⟩
  | dropped hd =>
    obtain ⟨rfl, ha, -⟩ | ⟨commits, now, i, rfl, hgi, -⟩ := hd
    · exact (hactive (by simp) ha).elim
    · have hs := hc.state_of_stage
      rw [hgi] at hs
      exact absurd hs (hp.resolve_right (by simp)).ne_fenced
  | failed _ hs =>
    obtain rfl := hg.events_unique hs.grows
    exact ⟨⟨hclosing, by simp⟩, hempty, by simp [BackgroundEvent.request?]⟩
  | forgot hs hb =>
    obtain rfl := hquiet hb
    exact ⟨⟨hclosing, by obtain hs | hs := hs <;> simp [hs]⟩, hempty, by simp⟩
  | abandoned _ hs =>
    obtain rfl := hquiet hs
    exact ⟨⟨hclosing, by simp⟩, hempty, by simp⟩
  | departed _ _ hs =>
    obtain rfl := hquiet hs
    exact ⟨⟨hclosing, by simp⟩, hempty, by simp⟩
  | departing _ _ hm _ hs =>
    obtain rfl := hg.events_unique hs.grows
    refine ⟨⟨hclosing, by simp⟩, fun _ h => h, fun r' hr' => ?_⟩
    obtain rfl := List.mem_singleton.1 hr'
    rw [hm]
    decide
  | vacated =>
    obtain rfl := hsame rfl
    exact ⟨⟨hclosing, by simp⟩, hempty, by simp⟩
  | committing hs => exact (hreconciling (by simp) hs.2.1).elim
  | revoking hr => exact (hreconciling (by simp) (hr.reconciling hc)).elim
  | assigning hr | applied hr | refused hr => exact (hreconciling (by simp) (hr.reconciling hc)).elim
  | completed hgi =>
    have hs := hc.state_of_stage
    rw [hgi] at hs
    exact (hreconciling (by simp) hs).elim

end Move

/-! ### Runs -/

section Runs

variable {p : Processor} {x z : Member} {y : Moment}

/-- Whatever happens keeps a member that has been told to leave for good so. -/
theorem Turn.yields (h : Turn y.before x y.cause y.after) (hx : y.before.Sound x)
    (hp : x.Parted) (hz : y.after.member = some z) : z.Parted ∧ x.Yields z y.requests := by
  cases h with
  | still _ hm _ hg | picked _ hm _ _ hg =>
    obtain rfl : x = z := Option.some.inj (hm.symm.trans hz)
    rw [Moment.requests_of_unmoved hg]
    exact ⟨hp, fun _ h => h, by simp⟩
  | noticed _ hm _ hg =>
    obtain rfl := Option.some.inj (hm.symm.trans hz)
    rw [Moment.requests_of_unmoved hg]
    exact ⟨⟨hp.closing, hp.state⟩, fun _ h => h, by simp⟩
  | @moved t x' m f _ hx' hmove hm hs =>
    obtain rfl : m.member = z := Option.some.inj (hm.symm.trans hz)
    obtain ⟨es, cs, hg⟩ := hmove.grows
    have he : y.requests = es.filterMap BackgroundEvent.request? := by
      rw [Moment.requests, Moment.published_eq (hg.trans hs.grows), List.append_nil]
    have hp' : x'.Parted := by
      obtain rfl | rfl := hx'
      · exact hp
      · exact ⟨rfl, hp.state⟩
    obtain ⟨hparted, howned, hrequests⟩ :=
      hmove.yields (hx.coherent.of_closing hx') hp'.closing (Or.inl hp') hg
    rw [he]
    exact ⟨hparted, fun tp h => (Member.like_of_closing hx').owned ▸ howned tp h, hrequests⟩

/-- Closing tells the member to leave for good. -/
theorem Processor.Sound.yields_leaveOnClose (hx : p.Sound x) (t : Ticket) :
    ∃ z, (p.receive (.leaveOnClose t)).member = some z ∧ z.Parted ∧
      x.Yields z (Moment.requests ⟨p, .received (.leaveOnClose t)⟩) := by
  let y : Member := { x with closing := true }
  let m := (Membership.leave ⟨y, p.session⟩).1
  have hy : y.Coherent := hx.coherent
  have hmove : Move ⟨y, p.session⟩ .left m none := Membership.move_leave hy
  obtain ⟨es, cs, hg⟩ := hmove.grows
  have hr : p.receive (.leaveOnClose t) = (p.withMembership m).withSession
      (·.chain (Membership.leave ⟨y, p.session⟩).2 t.slot) := by
    show p.leaveOnClose t = _
    rw [Processor.leaveOnClose, Processor.leave_eq hx.member]
    rfl
  have he : Moment.requests ⟨p, .received (.leaveOnClose t)⟩ =
      es.filterMap BackgroundEvent.request? := by
    have hq : p.session.Grows (p.receive (.leaveOnClose t)).session (es ++ []) (cs ++ []) := by
      rw [hr]
      exact hg.trans (Session.grows_chain _ _ _)
    rw [Moment.requests, Moment.published_eq hq, List.append_nil]
  obtain ⟨hparted, howned, hrequests⟩ := hmove.yields hy rfl (Or.inr rfl) hg
  refine ⟨m.member, by rw [hr]; rfl, hparted, howned, ?_⟩
  rwa [he]

/-- Since `past` the member has been told to leave for good, and has only lost partitions. -/
structure Chronicle.Yields (k : Chronicle) (past : List Moment) (x z : Member) : Prop where
  sound : k.present.Sound z
  parted : z.Parted
  owned : ∀ tp ∈ z.owned, tp ∈ x.owned
  moments : ∃ later, k.past = later ++ past ∧ ∀ y ∈ later, y.Yields

/-- A further moment, at which the member is told to leave for good or has been told so before. -/
theorem Chronicle.Yields.undergo {k : Chronicle} {past : List Moment}
    (h : k.Yields past x z) (c : Cause) : ∃ z', (k.undergo c).Yields past x z' := by
  obtain ⟨z', hz'⟩ := h.sound.undergo c
  obtain ⟨hparted, hy⟩ := Turn.yields (y := ⟨k.present, c⟩) (h.sound.turn c) h.sound h.parted hz'.member
  obtain ⟨later, hk, hlater⟩ := h.moments
  refine ⟨z', hz', hparted, fun tp ht => h.owned tp (hy.owned tp ht), ⟨k.present, c⟩ :: later, ?_, ?_⟩
  · exact congrArg (⟨k.present, c⟩ :: ·) hk
  · intro y hm
    obtain rfl | hm := List.mem_cons.1 hm
    · exact ⟨z, z', h.sound.member, hz'.member, hparted, hy⟩
    · exact hlater y hm

end Runs

namespace Setup

/-- However a run goes on in which the consumer is told to close, from then on the member is outside its
group, on its way out or failed. No moment gives it a partition, and at none is the caller asked to hear
of partitions that have been assigned. -/
theorem parted_for_good (u : Setup) (before after : List Action) (t : Ticket) :
    let k := u.chronicle (before ++ .process (.leaveOnClose t) :: after)
    ∃ x z later, (u.chronicle before).present.member = some x ∧ k.present.member = some z ∧
      z.Parted ∧ (∀ tp ∈ z.owned, tp ∈ x.owned) ∧
      k.past = later ++ (u.chronicle before).past ∧ ∀ y ∈ later, y.Yields := by
  intro k
  let k₀ := u.chronicle before
  obtain ⟨x, hx⟩ := u.sound_present before
  have hk : k = (k₀.undergo (.received (.leaveOnClose t))).run after := by
    show Chronicle.run _ (before ++ _ :: after) = _
    rw [Chronicle.run, List.foldl_append]
    rfl
  have hstart : ∃ z, (k₀.undergo (.received (.leaveOnClose t))).Yields k₀.past x z := by
    obtain ⟨z, hm, hparted, hy⟩ := hx.yields_leaveOnClose t
    obtain ⟨z', hz⟩ := hx.undergo (.received (.leaveOnClose t))
    obtain rfl : z = z' := Option.some.inj (hm.symm.trans hz.member)
    refine ⟨z, hz, hparted, hy.owned, [⟨k₀.present, _⟩], rfl, fun y hmem => ?_⟩
    rw [List.mem_singleton.1 hmem]
    exact ⟨x, z, hx.member, hm, hparted, hy⟩
  have hrun : ∃ z, k.Yields k₀.past x z := by
    rw [hk]
    have hstep (k : Chronicle) (c : Cause) (h : ∃ z, k.Yields k₀.past x z) :
        ∃ z, (k.undergo c).Yields k₀.past x z := by
      obtain ⟨z, h⟩ := h
      exact h.undergo c
    exact Chronicle.run_induction (I := fun k => ∃ z, k.Yields k₀.past x z)
      (fun k a h => Chronicle.follow_induction hstep h (k.present.causes a)) hstart after
  obtain ⟨z, hz⟩ := hrun
  obtain ⟨later, hpast, hlater⟩ := hz.moments
  exact ⟨x, z, later, hx.member, hz.sound.member, hz.parted, hz.owned, hpast, hlater⟩

end Setup

end GroupConsumer
