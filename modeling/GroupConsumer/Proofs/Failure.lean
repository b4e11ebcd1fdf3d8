import GroupConsumer.Proofs.Ledger
import GroupConsumer.Proofs.Processor.Refrains
import GroupConsumer.Proofs.SharedLeave

/-!
# A failed member stays failed

Once the group has failed a member for good, nothing brings it back: it owns nothing and has no target,
it asks neither for a run of the listener nor for a commit, and it answers every request to leave at
once (`failed_for_good`). The caller hears of the failure from the member once in the whole run, at the
moment at which it fails. Coherence says what a failed member is like, so that all that is left to show
is that no move leads out of that state (`Move.of_fatal`).
-/

namespace GroupConsumer

/-- The member has failed. It owns nothing and has no target, and as long as the group serves the
subscription nothing is assigned. -/
def Processor.Failed (p : Processor) : Prop :=
  ∃ x, p.member = some x ∧ x.state = .fatal ∧ x.owned = ∅ ∧ x.target = none ∧
    (p.subscription.isAuto = true → p.subscription.assigned = ∅)

namespace Moment

/-- The faults that the member itself has published. Those that the processor reports are not among
them. -/
def outcry (y : Moment) : List Fault :=
  match y.cause with
  | .reported _ => []
  | _ => y.published.filterMap BackgroundEvent.fault?

/-- The group fails the member, which has not failed before and tells the caller why. -/
structure Fails (y : Moment) (f : Fault) : Prop where
  cause : y.cause = .heard (.fatal f)
  before : y.before.state? ≠ some .fatal
  after : y.after.state? = some .fatal
  outcry : y.outcry = [f]

/-- What becomes of a failed member at a moment. -/
structure Endures (y : Moment) : Prop where
  before : y.before.Failed
  after : y.after.Failed
  /-- The caller is not asked to run its listener. -/
  requests : y.requests = []
  /-- The commit manager is not asked to commit before a revocation. -/
  commits : ∀ offsets deadline n, .commitBeforeRevocation offsets deadline n ∉ y.called
  /-- A request to leave is granted at once. -/
  answers : ∀ i, y.asks i → y.before.session.slots.isPending i = true →
    y.after.session.slots.outcome? i = some (.ok .done)

end Moment

/-! ### Moves -/

namespace Move

variable {m m' : Membership} {t : Trigger} {f : Option Fault}

/-- A failed member stays failed whatever sets it in motion, and it publishes and asks nothing. -/
theorem of_fatal (h : Move m t m' f) (hc : m.member.Coherent) (hs : m.member.state = .fatal) :
    m'.member.state = .fatal ∧ m.session.Grows m'.session [] [] := by
  have hother {P : Prop} {s : MemberState} (hx : m.member.state = s) (hne : s ≠ .fatal) : P :=
    absurd (hx.symm.trans hs) hne
  have hactive {P : Prop} (ha : m.member.state.isActive = true) : P := by
    rw [hs] at ha
    cases ha
  have hstage := hc.state_of_stage
  cases h with
  | rest | noted => exact ⟨hs, Session.Grows.refl _⟩
  | forgot _ hb => exact ⟨hs, hb.grows⟩
  | joined hj => exact hother hj.2.1 (by decide)
  | identified ha | retargeted ha | fenced ha | departed ha | departing ha => exact hactive ha
  | settled hx | abandoned hx => exact hother hx (by decide)
  | finished hd =>
    rcases hd with ⟨hx, -⟩ | ⟨hl, -⟩
    · exact hother hx (by decide)
    · rw [hs] at hl
      cases hl
  | dropped hd =>
    rcases hd with ⟨-, ha, -⟩ | ⟨commits, now, i, -, hg, -⟩
    · exact hactive ha
    · rw [hg] at hstage
      exact hother hstage (by decide)
  | failed hx => exact absurd hs hx
  | vacated hg | completed hg =>
    rw [hg] at hstage
    exact hother hstage (by decide)
  | committing hst => exact hother hst.2.1 (by decide)
  | revoking hr => exact hother (hr.reconciling hc) (by decide)
  | assigning hr | applied hr | refused hr => exact hother (hr.reconciling hc) (by decide)

/-- The news of an identity are no fault. -/
theorem fault?_news (x : Member) (memberId : String) (epoch : Int) :
    (x.news memberId epoch).filterMap BackgroundEvent.fault? = [] := by
  unfold Member.news
  split <;> rfl

/-- A member publishes a fault when it fails, and at no other time. -/
theorem fails_or_not (h : Move m t m' f) {es : List BackgroundEvent} {cs : List Call}
    (hg : m.session.Grows m'.session es cs) :
    (es.filterMap BackgroundEvent.fault? = [] ∧
        (m'.member.state = .fatal → m.member.state = .fatal)) ∨
      ∃ g, t = .heard (.fatal g) ∧ m.member.state ≠ .fatal ∧ m'.member.state = .fatal ∧
        es.filterMap BackgroundEvent.fault? = [g] := by
  have hmute {sub : Subscription} {es' : List BackgroundEvent} {cs' : List Call}
      (hb : m.session.Becomes m'.session sub es' cs')
      (he : es'.filterMap BackgroundEvent.fault? = []) :
      es.filterMap BackgroundEvent.fault? = [] := by
    rwa [hg.events_unique hb.grows]
  have hsame {sub : Subscription} (hs : m'.session = { m.session with subscription := sub }) :
      es.filterMap BackgroundEvent.fault? = [] := by
    have hb := Session.becomes_subscription m.session sub
    rw [← hs] at hb
    exact hmute hb rfl
  have hconclude (x : Member) (hx : x.state = m.member.state) (target : PartitionSet)
      (hf : (x.conclude target).state = .fatal) : m.member.state = .fatal := by
    rcases x.state_conclude target with hs | hs
    · rw [hs] at hf
      cases hf
    · exact hx.symm.trans (hs.symm.trans hf)
  cases h with
  | rest | noted | refused => exact Or.inl ⟨hsame rfl, id⟩
  | joined | settled | vacated => exact Or.inl ⟨hsame rfl, fun hf => by cases hf⟩
  | identified _ _ hb => exact Or.inl ⟨hmute hb (fault?_news _ _ _), id⟩
  | retargeted _ _ hb =>
    exact Or.inl ⟨hmute hb (fault?_news _ _ _), fun hf => by cases hf⟩
  | finished _ hb | fenced _ _ _ _ hb | abandoned _ hb | departed _ _ hb | departing _ _ _ _ hb =>
    exact Or.inl ⟨hmute hb rfl, fun hf => by cases hf⟩
  | dropped =>
    refine Or.inl ⟨hsame rfl, fun hf => ?_⟩
    rcases m.member.stateAfterLoss_eq m.session.subscription.isAuto with hs | hs <;>
      cases hs.symm.trans hf
  | @failed g s hs hb => exact Or.inr ⟨g, rfl, hs, rfl, by rw [hg.events_unique hb.grows]; rfl⟩
  | forgot _ hb | committing _ _ _ hb | revoking _ _ _ hb | assigning _ _ _ _ _ hb =>
    exact Or.inl ⟨hmute hb rfl, id⟩
  | @applied _ _ target =>
    exact Or.inl ⟨hsame rfl,
      hconclude { m.member with owned := target, stage := .idle } rfl target⟩
  | @completed _ _ _ target =>
    exact Or.inl ⟨hsame rfl, hconclude { m.member with stage := .idle } rfl target⟩

end Move

/-! ### Moments -/

section Moments

variable {p : Processor} {x z : Member} {y : Moment}

/-- A sound processor whose member has failed. -/
theorem Processor.Sound.failed (h : p.Sound x) (hs : x.state = .fatal) : p.Failed := by
  have ho := h.coherent.owned_eq_empty (Or.inr (Or.inl hs))
  have hr := h.coherent.atRest (by simp [hs]) (by simp [hs]) (by simp [hs])
  exact ⟨x, h.member, hs, ho, hr.2, fun hauto => (h.agrees.auto hauto).trans ho⟩

/-- A cause that does not move the member makes it publish no fault. -/
theorem Moment.outcry_of_unmoved (h : y.before.session.Unmoved y.cause y.after.session) :
    y.outcry = [] := by
  obtain ⟨p, c⟩ := y
  rcases Moment.published_of_unmoved h with he | ⟨fs, rfl, -⟩
  · unfold outcry
    split
    · rfl
    · rw [he]
      rfl
  · rfl

/-- The faults that a member in motion publishes. -/
theorem Moment.outcry_eq {t : Trigger} (hc : y.cause.trigger? y.before = some t)
    {es : List BackgroundEvent} {cs : List Call}
    (hg : y.before.session.Grows y.after.session es cs) :
    y.outcry = es.filterMap BackgroundEvent.fault? := by
  obtain ⟨p, c⟩ := y
  unfold outcry
  split
  · rename_i he
    simp only at he hc
    rw [he] at hc
    cases hc
  · rw [published_eq hg]

/-- At a moment the member fails, or it publishes no fault and has not failed if it had not before. -/
theorem Turn.fails_or_not (h : Turn y.before x y.cause y.after) (hx : y.before.member = some x)
    (hz : y.after.member = some z) :
    (y.outcry = [] ∧ (z.state = .fatal → x.state = .fatal)) ∨ ∃ g, y.Fails g := by
  cases h with
  | still _ hm _ hg | picked _ hm _ _ hg | noticed _ hm _ hg =>
    obtain rfl := Option.some.inj (hm.symm.trans hz)
    exact Or.inl ⟨Moment.outcry_of_unmoved hg, id⟩
  | @moved t x' m f hc hx' hmove hm hs =>
    obtain rfl : m.member = z := Option.some.inj (hm.symm.trans hz)
    obtain ⟨es, cs, hg⟩ := hmove.grows
    have ho : y.outcry = es.filterMap BackgroundEvent.fault? := by
      rw [Moment.outcry_eq hc (hg.trans hs.grows), List.append_nil]
    have hlike := (Member.like_of_closing hx').state
    rcases hmove.fails_or_not hg with ⟨he, hf⟩ | ⟨g, rfl, hb, ha, he⟩
    · exact Or.inl ⟨ho.trans he, fun hs => hlike ▸ hf hs⟩
    · have hcause : y.cause = .heard (.fatal g) := Cause.eq_of_trigger? hc
      refine Or.inr ⟨g, hcause, ?_, ?_, ho.trans he⟩
      · rw [Processor.state?_eq hx, ← hlike]
        exact fun h => hb (Option.some.inj h)
      · rw [Processor.state?_eq hz, ha]

/-- A failed member stays failed, and nobody is asked for anything on its behalf. -/
theorem Turn.of_fatal (h : Turn y.before x y.cause y.after) (hx : y.before.Sound x)
    (hs : x.state = .fatal) (hz : y.after.member = some z) :
    z.state = .fatal ∧ y.requests = [] ∧ y.before.session.Refrains y.after.session := by
  have hstill (hc : y.cause.trigger? y.before = none)
      (hg : y.before.session.Unmoved y.cause y.after.session) :
      y.requests = [] ∧ y.before.session.Refrains y.after.session :=
    ⟨Moment.requests_of_unmoved hg, Processor.refrains_undergo hc⟩
  cases h with
  | still hc hm _ hg | picked hc hm _ _ hg | noticed hc hm _ hg =>
    obtain rfl := Option.some.inj (hm.symm.trans hz)
    exact ⟨hs, hstill hc hg⟩
  | @moved t x' m f hc hx' hmove hm hb =>
    obtain rfl : m.member = z := Option.some.inj (hm.symm.trans hz)
    obtain ⟨hf, hg⟩ := hmove.of_fatal (hx.coherent.of_closing hx')
      ((Member.like_of_closing hx').state.trans hs)
    have hq := hg.trans hb.grows
    refine ⟨hf, ?_, hq.refrains⟩
    rw [Moment.requests, Moment.published_eq hq]
    rfl

/-- A failed member grants a request to leave at once. -/
theorem Processor.Sound.answers_of_fatal (h : p.Sound x) (hs : x.state = .fatal) {c : Cause}
    {i : SlotId} (hc : c.request? = some i) (hi : p.session.slots.isPending i = true) :
    (p.undergo c).session.slots.outcome? i = some (.ok .done) := by
  obtain ⟨e, t, rfl, he, ht, rfl⟩ := Cause.request?_eq_some.1 hc
  obtain ⟨t', x', q, ht', hx', hqs, -, hq⟩ := receive_leave h.member he
  obtain rfl := Option.some.inj (ht'.symm.trans ht)
  let m : Membership := ⟨x', p.session⟩
  have hm : m.member.state = .fatal := (Member.like_of_closing hx').state.trans hs
  have hl : m.leave = m.forget.leaveAtOnce (.ok ()) := by rw [Membership.leave, hm]
  have hdone : q.session.slots.outcome? m.leave.2 = some (.ok .done) := by
    rw [hqs]
    show m.leave.1.session.slots.outcome? _ = _
    rw [hl]
    exact Membership.outcome?_leaveAtOnce m.forget
  have hpend : q.session.slots.isPending t'.slot = true := by
    rw [hqs]
    show m.leave.1.session.slots.isPending _ = _
    rw [hl]
    exact Slots.isPending_freshWith hi _
  show (p.receive e).session.slots.outcome? t'.slot = _
  rw [hq]
  exact Slots.outcome?_chain hdone hpend

/-- What a failed member goes through. -/
theorem Processor.Sound.endures (h : y.before.Sound x) (hs : x.state = .fatal) :
    y.Endures ∧ y.after.state? = some .fatal := by
  obtain ⟨z, hz⟩ : ∃ z, y.after.Sound z := h.undergo y.cause
  obtain ⟨hf, hrequests, cs, hcs, hcalls⟩ := Turn.of_fatal (h.turn y.cause) h hs hz.member
  have hcalled : y.called = cs := by
    rw [Moment.called, hcs, List.drop_left]
  refine ⟨⟨h.failed hs, hz.failed hf, hrequests, fun offsets deadline n hmem => ?_,
    fun i hi hp => h.answers_of_fatal hs hi hp⟩, ?_⟩
  · rw [hcalled] at hmem
    cases hcalls _ hmem
  · rw [Processor.state?_eq hz.member, hf]

end Moments

/-! ### Runs -/

namespace Chronicle

variable {u : Setup} {k : Chronicle}

/-- How often the member has told the caller of a failure: once if it has failed, and else never. -/
inductive Mourned (k : Chronicle) : Prop
  | never (hs : k.present.state? ≠ some .fatal) (hf : k.past.flatMap Moment.outcry = [])
  | once {f : Fault} {y : Moment} (hs : k.present.state? = some .fatal)
      (hf : k.past.flatMap Moment.outcry = [f]) (hy : y ∈ k.past) (hfails : y.Fails f)

theorem Lived.mourned (h : Lived u.processor k) : k.Mourned := by
  induction h with
  | start => exact .never (by simp [Processor.state?, Setup.processor, Setup.member]) rfl
  | @undergo k h c ih =>
    obtain ⟨x, hx⟩ := h.sound u.sound
    obtain ⟨z, hz⟩ := hx.undergo c
    let y : Moment := ⟨k.present, c⟩
    have hnext : (k.undergo c).past.flatMap Moment.outcry =
        y.outcry ++ k.past.flatMap Moment.outcry := rfl
    have hxs := Processor.state?_eq hx.member
    have hzs : (k.undergo c).present.state? = some z.state := Processor.state?_eq hz.member
    rcases Turn.fails_or_not (y := y) (hx.turn c) hx.member hz.member with ⟨he, hs⟩ | ⟨g, hg⟩
    · rw [he, List.nil_append] at hnext
      cases ih with
      | never hn hf =>
        refine .never (fun hz' => hn ?_) (hnext.trans hf)
        rw [hxs, hs (Option.some.inj (hzs.symm.trans hz'))]
      | once hn hf hy hfails =>
        have hx' : x.state = .fatal := Option.some.inj (hxs.symm.trans hn)
        exact .once (hx.endures (y := y) hx').2 (hnext.trans hf) (List.mem_cons_of_mem _ hy) hfails
    · cases ih with
      | never hn hf =>
        refine .once hg.after ?_ List.mem_cons_self hg
        rw [hnext, hf, hg.outcry]
        rfl
      | once hn => exact absurd hn hg.before

/-- Every moment that finds a failed member is endured, and so is every later one. -/
theorem Lived.endures (h : Lived u.processor k) {later earlier : List Moment} {y : Moment}
    (hk : k.past = later ++ y :: earlier) (hf : y.after.state? = some .fatal) :
    k.present.Failed ∧ ∀ z ∈ later, z.Endures := by
  suffices hall : k.present.state? = some .fatal ∧ ∀ z ∈ later, z.Endures by
    obtain ⟨x, hx⟩ := h.sound u.sound
    have hs := Processor.state?_eq hx.member
    exact ⟨hx.failed (Option.some.inj (hs.symm.trans hall.1)), hall.2⟩
  induction h generalizing later with
  | start =>
    rw [List.nil_eq, List.append_eq_nil_iff] at hk
    cases hk.2
  | @undergo k h c ih =>
    cases later with
    | nil =>
      cases hk
      exact ⟨hf, fun z hz => absurd hz List.not_mem_nil⟩
    | cons w later =>
      injection hk with hw hk
      obtain ⟨hs, hlater⟩ := ih hk
      obtain ⟨x, hx⟩ := h.sound u.sound
      have hxs := Processor.state?_eq hx.member
      obtain ⟨hend, hafter⟩ := hx.endures (y := ⟨k.present, c⟩) (Option.some.inj (hxs.symm.trans hs))
      refine ⟨hafter, fun z hz => ?_⟩
      rcases List.mem_cons.1 hz with rfl | hz
      · exact hw ▸ hend
      · exact hlater z hz

end Chronicle

namespace Setup

/-- Once a moment leaves the member failed, it stays so however the run goes on. It owns nothing and
has no target, nobody is asked for anything on its behalf, and requests to leave are granted at once.
In the whole run it publishes one fault, at the moment at which the group fails it. -/
theorem failed_for_good (u : Setup) (as : List Action) {later earlier : List Moment} {y : Moment}
    (hk : (u.chronicle as).past = later ++ y :: earlier) (hf : y.after.state? = some .fatal) :
    (u.chronicle as).present.Failed ∧ (∀ z ∈ later, z.Endures) ∧
      ∃ f, (u.chronicle as).past.flatMap Moment.outcry = [f] ∧
        ∃ z ∈ (u.chronicle as).past, z.Fails f := by
  have h := u.lived as
  obtain ⟨hpresent, hlater⟩ := h.endures hk hf
  refine ⟨hpresent, hlater, ?_⟩
  cases h.mourned with
  | never hn =>
    obtain ⟨x, hx, hs, -⟩ := hpresent
    exact absurd (by rw [Processor.state?_eq hx, hs]) hn
  | @once f z _ hout hz hfails => exact ⟨f, hout, z, hz, hfails⟩

/-- A consumer is given a partition, the group fails its member, and it unsubscribes. -/
def failingSteps : List Action :=
  firstSteps ++ [.outside (.script { outcomes := [.fatal (.fatal "gone")] }), .progress 0,
    .outside .fresh, .process (.unsubscribe (ticketAt 3))]

/-- A consumer whose member has failed is told at once that it has left. -/
theorem failed_for_good_unsubscribing :
    let k := heartbeatSetup.chronicle failingSteps
    k.present.Failed ∧ (∃ f, k.past.flatMap Moment.outcry = [f]) ∧
      k.present.session.slots.outcome? 3 = some (.ok .done) := by
  intro k
  have hp : k.past[4]?.map (fun y => y.after.state?) = some (some .fatal) := by decide +kernel
  obtain ⟨y, hy, hs⟩ := Option.map_eq_some_iff.1 hp
  obtain ⟨hpresent, -, f, hf, -⟩ :=
    failed_for_good heartbeatSetup failingSteps (past_eq_of_getElem? hy) hs
  exact ⟨hpresent, ⟨f, hf⟩, by decide +kernel⟩

end Setup

end GroupConsumer
