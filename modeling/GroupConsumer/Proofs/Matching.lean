import GroupConsumer.Proofs.Run.Chronicle
import GroupConsumer.Proofs.Run.Patterns

/-!
# The topics that a pattern picks

A pattern is evaluated at most once at a version of the metadata. Nothing is missed by that as long as
a version tells the topics and never falls back: whatever has become of the subscription since, the
topics it holds are those that its pattern picked at the version on record (`Matched`), so that after
each attempt to evaluate it they are those that it picks now (`topics_match_pattern`).
-/

namespace GroupConsumer

theorem Subscription.mem_matching {s : Subscription} {pattern : Pattern}
    (h : s.pattern = some pattern) {topics : List String} {topic : String} :
    topic ∈ s.matching topics ↔ topic ∈ topics ∧ pattern.picks topic = true := by
  simp [matching, h]

/-- The pattern tells which topics match. -/
theorem Subscription.matching_congr {s t : Subscription} (h : t.pattern = s.pattern) :
    t.matching = s.matching := by
  unfold matching
  rw [h]

namespace Processor

variable {p q r : Processor} {x : Member} {c : Cause}

/-! ### Evaluations -/

/-- If a pattern is read, then the topics of the subscription are exactly those of the metadata that
the pattern picks. -/
def UpToDate (p : Processor) : Prop :=
  p.subscription.form = .autoPattern →
    ∃ pattern, p.subscription.pattern = some pattern ∧
      ∀ topic, topic ∈ p.subscription.topics ↔
        topic ∈ p.metadata.topics ∧ pattern.picks topic = true

/-- The version of the metadata tells their topics, and a pattern that is read has the topics that it
picked at the version at which it was last evaluated. -/
structure Matched (topicsAt : UInt64 → List String) (p : Processor) : Prop where
  metadata : p.metadata.present = true ∧ p.metadata.topics = topicsAt p.metadata.version
  pattern : p.subscription.form = .autoPattern → ∃ pattern, p.subscription.pattern = some pattern
  evaluated : ∀ v, p.subscription.form = .autoPattern → p.evaluated = some v →
    v ≤ p.metadata.version ∧ p.subscription.topics = p.subscription.matching (topicsAt v)

variable {topicsAt : UInt64 → List String}

/-- What hands the pattern on keeps it matched, and the metadata may become newer. -/
theorem Matched.of_keepsPattern (h : p.Matched topicsAt) (hk : KeepsPattern p q)
    (hq : q.metadata.present = true ∧ q.metadata.topics = topicsAt q.metadata.version)
    (hv : p.metadata.version ≤ q.metadata.version) : q.Matched topicsAt where
  metadata := hq
  pattern hform := by
    obtain ⟨hp, -, hpattern⟩ := hk.subscription hform
    rw [hpattern]
    exact h.pattern hp
  evaluated v hform he := by
    obtain ⟨hp, htopics, hpattern⟩ := hk.subscription hform
    obtain ⟨hle, hmatching⟩ := h.evaluated v hp (hk.evaluated v he)
    refine ⟨UInt64.le_trans hle hv, ?_⟩
    rw [htopics, hmatching, Subscription.matching_congr hpattern]

theorem Matched.keep (h : p.Matched topicsAt) (hk : KeepsPattern p q)
    (hq : q.metadata = p.metadata) : q.Matched topicsAt :=
  h.of_keepsPattern hk (by rw [hq]; exact h.metadata) (by rw [hq]; exact UInt64.le_refl _)

/-- What holds the topics that its pattern picks now is up to date. -/
theorem upToDate_of_matching
    (hp : p.subscription.form = .autoPattern → ∃ pattern, p.subscription.pattern = some pattern)
    (h : p.subscription.form = .autoPattern →
      p.subscription.topics = p.subscription.matching p.metadata.topics) : p.UpToDate := by
  intro hform
  obtain ⟨pattern, hpattern⟩ := hp hform
  refine ⟨pattern, hpattern, fun topic => ?_⟩
  rw [h hform]
  exact Subscription.mem_matching hpattern

/-- A pattern is not evaluated without metadata, or at a version at which it was evaluated before, and
otherwise the subscription holds the topics that it picks. -/
theorem evaluatePattern_cases (p : Processor) :
    (p.evaluatePattern.1 = p ∧ (p.subscription.form = .autoPattern → p.metadata.present = true →
        ∃ last, p.evaluated = some last ∧ p.metadata.version ≤ last)) ∨
      (p.evaluatePattern.1.subscription =
          { p.subscription with topics := p.subscription.matching p.metadata.topics } ∧
        p.evaluatePattern.1.metadata = p.metadata ∧
        p.evaluatePattern.1.evaluated = some p.metadata.version) := by
  unfold evaluatePattern
  simp only
  split
  · rename_i hskip
    refine Or.inl ⟨rfl, fun hform hpresent => ?_⟩
    have hpresent : p.session.script.hasMetadata = true := hpresent
    simp only [hform, hpresent, ne_eq, not_true, Bool.not_true, Bool.false_eq_true, false_or,
      Option.any_eq_true, decide_eq_true_eq] at hskip
    exact hskip
  · rename_i heval
    have hform : p.subscription.form = .autoPattern := by
      by_cases hform : p.subscription.form = .autoPattern
      · exact hform
      · exact absurd (Or.inl hform) heval
    refine Or.inr ?_
    split
    · rename_i s changed hs
      exact ⟨(Subscription.subscribeMatched_eq_ok hs).2, rfl, rfl⟩
    · rename_i f hf
      rw [Subscription.subscribeMatched] at hf
      split at hf
      · cases hf
      · rename_i hne
        exact absurd hform hne

/-- From `p`, and at its metadata, the pattern has been evaluated. -/
structure Evaluated (topicsAt : UInt64 → List String) (p q : Processor) : Prop where
  matched : q.Matched topicsAt
  upToDate : q.UpToDate
  metadata : q.metadata = p.metadata

/-- What was evaluated stays so if neither the subscription nor the metadata change. -/
theorem Evaluated.same (h : Evaluated topicsAt p q) (hs : r.subscription = q.subscription)
    (hr : r.metadata = q.metadata) (he : r.evaluated = q.evaluated) : Evaluated topicsAt p r where
  matched := h.matched.keep (keepsPattern_of_subscription hs he) hr
  upToDate := by
    unfold UpToDate
    rw [hs, hr]
    exact h.upToDate
  metadata := hr.trans h.metadata

/-- After an attempt to evaluate it, a pattern has the topics that it picks now: if it is not
evaluated, then it was at this very version. -/
theorem Matched.evaluatePattern (h : p.Matched topicsAt) :
    Evaluated topicsAt p p.evaluatePattern.1 := by
  obtain ⟨hpresent, htopics⟩ := h.metadata
  obtain ⟨heq, hskip⟩ | ⟨hs, hm, he⟩ := evaluatePattern_cases p
  · rw [heq]
    refine ⟨h, upToDate_of_matching h.pattern fun hform => ?_, rfl⟩
    obtain ⟨last, hlast, hle⟩ := hskip hform hpresent
    obtain ⟨hge, hmatching⟩ := h.evaluated last hform hlast
    obtain rfl : last = p.metadata.version := UInt64.le_antisymm hge hle
    rw [hmatching, htopics]
  · generalize p.evaluatePattern.1 = q at hs hm he
    have hform : q.subscription.form = p.subscription.form := by rw [hs]
    have hpattern : q.subscription.pattern = p.subscription.pattern := by rw [hs]
    have hq : q.subscription.topics = q.subscription.matching q.metadata.topics := by
      rw [Subscription.matching_congr hpattern, hm, hs]
    have hsome : q.subscription.form = .autoPattern →
        ∃ pattern, q.subscription.pattern = some pattern := by
      rw [hform, hpattern]
      exact h.pattern
    refine ⟨⟨by rw [hm]; exact h.metadata, hsome, fun v _ hv => ?_⟩,
      upToDate_of_matching hsome fun _ => hq, hm⟩
    obtain rfl : p.metadata.version = v := Option.some.inj (he.symm.trans hv)
    rw [hq, hm, htopics]
    exact ⟨UInt64.le_refl _, rfl⟩

theorem Matched.refreshPattern (h : p.Matched topicsAt) (t : Ticket) :
    Evaluated topicsAt p (p.refreshPattern t) := by
  have hpresent : p.session.script.hasMetadata = true := h.metadata.1
  rw [Processor.refreshPattern, if_pos hpresent]
  simp only
  split
  · exact h.evaluatePattern.same rfl rfl rfl
  · exact h.evaluatePattern.same rfl rfl rfl

/-- A pattern that is refused changes nothing, and one that is chosen is evaluated at once. -/
theorem Matched.subscribePattern (h : p.Matched topicsAt) (t : Ticket) (source : String) :
    (∃ f, p.subscribePattern t source = p.fail t f) ∨
      Evaluated topicsAt p (p.subscribePattern t source) := by
  unfold Processor.subscribePattern
  split
  · exact Or.inl ⟨_, rfl⟩
  · split
    · exact Or.inl ⟨_, rfl⟩
    · rename_i s hs
      obtain ⟨-, topics, pattern, rfl⟩ := Subscription.subscribePattern_eq_ok hs
      -- The version on record is forgotten with the pattern, so that the new one is evaluated.
      let q : Processor := { p.withSubscription fun _ =>
        { p.subscription with form := .autoPattern, topics, pattern := some pattern } with
        evaluated := none }
      have hq : q.Matched topicsAt := ⟨h.metadata, fun _ => ⟨pattern, rfl⟩, fun v _ hv => by cases hv⟩
      have hm : q.evaluatePattern.1.requestMetadata.metadata = q.evaluatePattern.1.metadata := by
        unfold requestMetadata
        split <;> rfl
      have hr := handles_requestMetadata q.evaluatePattern.1 []
      have he : Evaluated topicsAt p q.evaluatePattern.1.requestMetadata := by
        obtain ⟨hmatched, hupToDate, hmetadata⟩ :=
          hq.evaluatePattern.same hr.subscription hm hr.evaluated
        exact ⟨hmatched, hupToDate, hmetadata⟩
      exact Or.inr (he.same rfl rfl rfl)

/-! ### Runs -/

/-- Whatever is done while the metadata stay keeps the pattern matched. -/
theorem Sound.matched_undergo (hp : p.Sound x) (h : p.Matched topicsAt) (hc : c.isScript = false) :
    (p.undergo c).Matched topicsAt := by
  cases he : c.evaluates with
  | false => exact h.keep (hp.keepsPattern_undergo he) (hp.metadata_undergo hc)
  | true =>
    cases c with
    | received e =>
      cases e with
      | refreshPattern t => exact (h.refreshPattern t).matched
      | subscribePattern t source =>
        obtain ⟨f, hf⟩ | he := h.subscribePattern t source
        · show (p.subscribePattern t source).Matched topicsAt
          rw [hf]
          exact h.keep (keepsPattern_of_subscription rfl rfl) rfl
        · exact he.matched
      | _ => cases he
    | _ => cases he

theorem Sound.matched_follow (hp : p.Sound x) (h : p.Matched topicsAt) {cs : List Cause}
    (hcs : ∀ c ∈ cs, c.isScript = false) :
    (p.follow cs).Matched topicsAt ∧ (p.follow cs).metadata = p.metadata := by
  induction cs generalizing p x with
  | nil => exact ⟨h, rfl⟩
  | cons c cs ih =>
    have hc := hcs c List.mem_cons_self
    obtain ⟨y, hy⟩ := hp.undergo c
    obtain ⟨hmatched, hm⟩ :=
      ih hy (hp.matched_undergo h hc) fun c' hc' => hcs c' (List.mem_cons_of_mem _ hc')
    exact ⟨hmatched, hm.trans (hp.metadata_undergo hc)⟩

end Processor

/-- The metadata that the cluster gives from now on, if they change. -/
def Action.metadata? : Action → Option Metadata
  | .outside (.script s) => some s.metadata
  | _ => none

/-- The metadata that a run meets, in order. -/
def Setup.metadata (u : Setup) (as : List Action) : List Metadata :=
  u.script.metadata :: as.filterMap Action.metadata?

/-- The cluster can always be asked, its topics depend on the version alone, and the version never
falls back. -/
structure Metadata.Steady (topicsAt : UInt64 → List String) (ms : List Metadata) : Prop where
  told : ∀ m ∈ ms, m.present = true ∧ m.topics = topicsAt m.version
  ascending : ms.Pairwise (·.version ≤ ·.version)

namespace Processor

variable {p : Processor} {x : Member} {topicsAt : UInt64 → List String}

/-- The causes of an action that does not change the metadata do not do so either. -/
theorem not_isScript_of_mem_causes {a : Action} (ha : a.metadata? = none) {c : Cause}
    (h : c ∈ p.causes a) : c.isScript = false := by
  cases a with
  | outside o =>
    obtain rfl := List.mem_singleton.1 h
    cases o with
    | script s => cases ha
    | _ => rfl
  | progress now =>
    obtain rfl | ⟨u, rfl⟩ | rfl | ⟨o, rfl⟩ | rfl | rfl | ⟨fs, rfl⟩ := mem_progressCauses h <;> rfl
  | process e =>
    cases e with
    | poll time gate => obtain rfl | rfl | rfl | rfl | ⟨fs, rfl⟩ := mem_pollCauses h <;> rfl
    | callbackDone method slot fault =>
      obtain rfl | ⟨now, rfl⟩ | ⟨fs, rfl⟩ := mem_callbackCauses h <;> rfl
    | _ =>
      obtain rfl := List.mem_singleton.1 h
      rfl

theorem Sound.matched_act (hp : p.Sound x) (h : p.Matched topicsAt) {a : Action}
    (ha : a.metadata? = none) : (p.act a).Matched topicsAt ∧ (p.act a).metadata = p.metadata := by
  rw [← hp.follow_causes a]
  exact hp.matched_follow h fun c hc => not_isScript_of_mem_causes ha hc

/-- New metadata leave the pattern matched at the version on record. -/
theorem Matched.act_script (h : p.Matched topicsAt) {s : Script}
    (hs : s.hasMetadata = true ∧ s.metadataTopics = topicsAt s.metadataVersion)
    (hv : p.metadata.version ≤ s.metadataVersion) :
    (p.act (.outside (.script s))).Matched topicsAt :=
  h.of_keepsPattern (keepsPattern_of_subscription rfl rfl) hs hv

theorem Sound.matched_run (hp : p.Sound x) (h : p.Matched topicsAt) {as : List Action}
    (hs : Metadata.Steady topicsAt (p.metadata :: as.filterMap Action.metadata?)) :
    (as.foldl act p).Matched topicsAt := by
  induction as generalizing p x with
  | nil => exact h
  | cons a as ih =>
    obtain ⟨y, hy⟩ : ∃ y, (p.act a).Sound y := by
      rw [← hp.follow_causes a]
      exact hp.follow _
    cases ha : a.metadata? with
    | none =>
      obtain ⟨hmatched, hm⟩ := hp.matched_act h ha
      rw [List.filterMap_cons_none ha] at hs
      exact ih hy hmatched (by rw [hm]; exact hs)
    | some m =>
      rw [List.filterMap_cons_some ha] at hs
      obtain ⟨s, rfl⟩ : ∃ s, a = .outside (.script s) := by
        cases a with
        | outside o =>
          cases o with
          | script s => exact ⟨s, rfl⟩
          | _ => cases ha
        | _ => cases ha
      cases ha
      obtain ⟨htold, hascending⟩ := hs
      obtain ⟨hfirst, hrest⟩ := List.pairwise_cons.1 hascending
      refine ih hy (h.act_script (htold s.metadata (by simp)) (hfirst s.metadata (by simp))) ?_
      exact ⟨fun m hm => htold m (List.mem_cons_of_mem _ hm), hrest⟩

end Processor

namespace Setup

/-- If the version of the metadata tells their topics and never falls back, then after any run an
update of the pattern, and a subscription to a pattern that succeeds, leave exactly those topics that
the pattern picks of the present metadata, whether or not the pattern had to be evaluated for it. -/
theorem topics_match_pattern (u : Setup) (as : List Action) {topicsAt : UInt64 → List String}
    (h : Metadata.Steady topicsAt (u.metadata as)) :
    let p := (u.chronicle as).present
    (∀ t, (p.act (.process (.refreshPattern t))).UpToDate) ∧
      ∀ t source v, p.session.slots.isPending t.slot = true →
        let q := p.act (.process (.subscribePattern t source))
        q.session.slots.outcome? t.slot = some (.ok v) → q.UpToDate := by
  intro p
  have hstart : u.processor.Matched topicsAt :=
    ⟨h.told _ List.mem_cons_self, (by intro hform; cases hform), (by intro _ hform; cases hform)⟩
  have hp : p.Matched topicsAt := by
    show (u.chronicle as).present.Matched topicsAt
    rw [present_chronicle]
    exact u.sound.matched_run hstart h
  refine ⟨fun t => (hp.refreshPattern t).upToDate, fun t source v hpending => ?_⟩
  intro q hok
  obtain ⟨f, hf⟩ | he := hp.subscribePattern t source
  · have hq : q = p.fail t f := hf
    rw [hq] at hok
    cases (Slots.outcome?_settle_self hpending (.error f)).symm.trans hok
  · exact he.upToDate

/-- The topics of a cluster that gains one after its first version. -/
def fruitAt (version : UInt64) : List String :=
  if version ≤ 1 then ["apple", "pear"] else ["apple", "avocado", "pear"]

/-- What such a cluster tells at a version, and what heartbeats bring meanwhile. -/
def fruitScript (version : UInt64) (outcomes : List HeartbeatOutcome) : Script :=
  { managers := [.heartbeat], hasMetadata := true, metadataVersion := version,
    metadataTopics := fruitAt version, outcomes }

/-- A consumer reads a pattern and is given a partition; it is still about to leave when there is a
new topic. -/
def leavingPatternSteps : List Action :=
  [.outside .fresh, .process (.subscribePattern (ticketAt 0) "a.*"),
    .outside .fresh, .process (.poll 0 1),
    .outside (.script (fruitScript 1
      [.success "m" 1 (some (.ofList [{ topic := "apple", number := 0 }]))])),
    .progress 0,
    .outside .fresh, .process (.unsubscribe (ticketAt 3)),
    .outside (.script (fruitScript 2 [])), .outside .fresh]

/-- A consumer that is about to leave still takes note of a new topic, and of another pattern. -/
theorem topics_match_pattern_leaving :
    let p := (chronicle { script := fruitScript 1 [] } leavingPatternSteps).present
    (p.state? = some .prepareLeaving ∧ p.subscription.topics = .ofList ["apple"]) ∧
      (p.act (.process (.refreshPattern (ticketAt 4)))).UpToDate ∧
      (p.act (.process (.subscribePattern (ticketAt 4) "p.*"))).UpToDate := by
  intro p
  have hsteady : Metadata.Steady fruitAt
      (metadata { script := fruitScript 1 [] } leavingPatternSteps) :=
    ⟨by decide +kernel, by decide +kernel⟩
  obtain ⟨hrefresh, hsubscribe⟩ :=
    topics_match_pattern { script := fruitScript 1 [] } leavingPatternSteps hsteady
  have hpending : p.session.slots.isPending 4 = true := by decide +kernel
  obtain ⟨v, hok⟩ : ∃ v, (p.act (.process
      (.subscribePattern (ticketAt 4) "p.*"))).session.slots.outcome? 4 = some (.ok v) := by
    have hany : ((p.act (.process
        (.subscribePattern (ticketAt 4) "p.*"))).session.slots.outcome? 4).any (·.isOk) = true := by
      decide +kernel
    obtain ⟨o, ho, hisOk⟩ := (Option.any_eq_true _ _).1 hany
    cases o with
    | ok v => exact ⟨v, ho⟩
    | error f => cases hisOk
  exact ⟨by decide +kernel, hrefresh (ticketAt 4), hsubscribe (ticketAt 4) "p.*" v hpending hok⟩

end Setup

end GroupConsumer
