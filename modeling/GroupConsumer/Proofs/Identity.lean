import GroupConsumer.Proofs.Run.Chronicle
import GroupConsumer.Proofs.Ledger

/-!
# What the caller knows of the identity

The group gives a member an id and an epoch, and the caller is told of them only when they are new.
Joining, being fenced and leaving set the epoch back and tell nobody, so that the caller may know an
epoch that the member has not any more. All through a run what the caller was last told is the
identity of the member, unless the epoch has been set back (`Member.Known`). An epoch that was set
back is none that the group gives, so that the caller hears of the next one.
-/

namespace GroupConsumer

namespace Moment

/-- The identities that the caller was told of. -/
def identities (y : Moment) : List (String × Int) :=
  y.published.filterMap BackgroundEvent.identity?

/-- The epoch was set back: it is another one, and the caller was not told. -/
def SetsBack (y : Moment) : Prop :=
  y.identities = [] ∧ y.before.member.map (·.epoch) ≠ y.after.member.map (·.epoch)

end Moment

/-- The identities that the caller has been told of so far, the oldest first. -/
def identified : List Moment → List (String × Int)
  | [] => []
  | y :: past => identified past ++ y.identities

/-- What the caller was last told of is the identity of the member, if that has an epoch of the
group. -/
def Member.Known (x : Member) (told : Option (String × Int)) : Prop :=
  x.epoch = joinEpoch ∨ x.state = .leaving ∨ x.state = .fatal ∨ told = some (x.memberId, x.epoch)

/-- What the caller is told when `x` turns into `z`. -/
inductive Member.Announces (x z : Member) : List (String × Int) → Prop
  | kept (hi : z.memberId = x.memberId) (he : z.epoch = x.epoch)
      (hs : x.state = .leaving ∨ x.state = .fatal → z.state = .leaving ∨ z.state = .fatal) :
      Announces x z []
  | setBack (hi : z.memberId = x.memberId)
      (he : z.epoch = joinEpoch ∨ (z.epoch = leaveEpoch ∧ z.state = .leaving)) : Announces x z []
  | told : Announces x z [(z.memberId, z.epoch)]

namespace Member

variable {x z : Member} {ids : List (String × Int)} {told : Option (String × Int)}

/-- A member with an epoch of the group is known. -/
theorem Known.eq (h : x.Known told) (ha : x.state.isActive = true) (he : x.epoch ≠ joinEpoch) :
    told = some (x.memberId, x.epoch) := by
  obtain h | hs | hs | h := h
  · exact absurd h he
  · rw [hs] at ha
    cases ha
  · rw [hs] at ha
    cases ha
  · exact h

/-- A member stays known when what it announces is heard. -/
theorem Announces.known {heard : List (String × Int)} (h : x.Announces z ids)
    (hk : x.Known heard.getLast?) : z.Known (heard ++ ids).getLast? := by
  cases h with
  | kept hi he hs =>
    rw [List.append_nil]
    obtain hk | hk | hk | hk := hk
    · exact Or.inl (he.trans hk)
    · exact Or.inr ((hs (Or.inl hk)).imp_right Or.inl)
    · exact Or.inr ((hs (Or.inr hk)).imp_right Or.inl)
    · exact Or.inr (Or.inr (Or.inr (by rw [hk, hi, he])))
  | setBack hi he =>
    obtain he | ⟨-, hs⟩ := he
    · exact Or.inl he
    · exact Or.inr (Or.inl hs)
  | told => exact Or.inr (Or.inr (Or.inr List.getLast?_concat))

/-- Closing is no part of the identity. -/
theorem Announces.of_closing {y : Member} (h : y.Announces z ids)
    (hy : y = x ∨ y = { x with closing := true }) : x.Announces z ids := by
  obtain rfl | rfl := hy
  · exact h
  · cases h with
    | kept hi he hs => exact .kept hi he hs
    | setBack hi he => exact .setBack hi he
    | told => exact .told

/-- Who tells nothing of itself goes by the same id. -/
theorem Announces.memberId (h : x.Announces z []) : z.memberId = x.memberId := by
  cases h with
  | kept hi | setBack hi => exact hi

/-- What is announced last is what the member then is. -/
theorem Announces.getLast? (h : x.Announces z ids) (hne : ids ≠ []) :
    ids.getLast? = some (z.memberId, z.epoch) := by
  cases h with
  | kept | setBack => exact absurd rfl hne
  | told => rfl

theorem identities_news (x : Member) (memberId : String) (epoch : Int) :
    (x.news memberId epoch).filterMap BackgroundEvent.identity? =
      if memberId ≠ x.memberId ∨ epoch ≠ x.epoch then [(memberId, epoch)] else [] := by
  unfold news
  split <;> rfl

/-- A member that takes on an identity announces it, unless it has it already. -/
theorem announces_news {x z : Member} {memberId : String} {epoch : Int}
    (ha : x.state.isActive = true) (hi : z.memberId = memberId) (he : z.epoch = epoch) :
    x.Announces z ((x.news memberId epoch).filterMap BackgroundEvent.identity?) := by
  rw [identities_news]
  subst hi he
  split
  · exact .told
  · rename_i h
    refine .kept (Decidable.byContradiction fun hn => h (Or.inl hn))
      (Decidable.byContradiction fun hn => h (Or.inr hn)) ?_
    rintro (hs | hs) <;> rw [hs] at ha <;> cases ha

theorem identity_conclude (x : Member) (target : PartitionSet) :
    (x.conclude target).memberId = x.memberId ∧ (x.conclude target).epoch = x.epoch := by
  unfold conclude
  split <;> exact ⟨rfl, rfl⟩

end Member

/-- A move announces the identity of the member, if it is a new one. -/
theorem Move.announces {m m' : Membership} {t : Trigger} {f : Option Fault} (h : Move m t m' f)
    (hc : m.member.Coherent) {es : List BackgroundEvent} {cs : List Call}
    (hg : m.session.Grows m'.session es cs) :
    m.member.Announces m'.member (es.filterMap BackgroundEvent.identity?) := by
  have hsame {sub : Subscription} (hs : m'.session = { m.session with subscription := sub }) :
      es = [] := by
    have hb := Session.becomes_subscription m.session sub
    rw [← hs] at hb
    exact hg.events_unique hb.grows
  have hin {z : Member} (hi : z.memberId = m.member.memberId) (he : z.epoch = m.member.epoch)
      (hs : m.member.state ≠ .leaving ∧ m.member.state ≠ .fatal) : m.member.Announces z [] :=
    .kept hi he fun h => absurd h (not_or.2 hs)
  have hstate {s : MemberState} (hs : m.member.state = s) (hne : s ≠ .leaving ∧ s ≠ .fatal) :
      m.member.state ≠ .leaving ∧ m.member.state ≠ .fatal := hs ▸ hne
  have hactive (ha : m.member.state.isActive = true) :
      m.member.state ≠ .leaving ∧ m.member.state ≠ .fatal := by
    constructor <;> intro hs <;> rw [hs] at ha <;> cases ha
  cases h with
  | rest | noted =>
    obtain rfl := hsame rfl
    exact .kept rfl rfl id
  | joined | dropped =>
    obtain rfl := hsame rfl
    exact .setBack rfl (Or.inl rfl)
  | identified ha _ hs | retargeted ha _ hs =>
    rw [hg.events_unique hs.grows]
    exact Member.announces_news ha rfl rfl
  | settled hs =>
    obtain rfl := hsame rfl
    exact hin rfl rfl (hstate hs (by decide))
  | finished _ hb | fenced _ _ _ _ hb =>
    obtain rfl := hg.events_unique hb.grows
    exact .setBack rfl (Or.inl rfl)
  | failed _ hb =>
    obtain rfl := hg.events_unique hb.grows
    exact .kept rfl rfl fun _ => Or.inr rfl
  | forgot _ hb =>
    obtain rfl := hg.events_unique hb.grows
    exact .kept rfl rfl id
  | abandoned hs hb =>
    obtain rfl := hg.events_unique hb.grows
    exact hin rfl rfl (hstate hs (by decide))
  | departed _ _ hb =>
    obtain rfl := hg.events_unique hb.grows
    exact .setBack rfl (Or.inr ⟨rfl, rfl⟩)
  | departing ha _ _ _ hb =>
    obtain rfl := hg.events_unique hb.grows
    exact hin rfl rfl (hactive ha)
  | vacated =>
    obtain rfl := hsame rfl
    exact .setBack rfl (Or.inr ⟨rfl, rfl⟩)
  | committing hst _ _ hb =>
    obtain rfl := hg.events_unique hb.grows
    exact hin rfl rfl (hstate hst.2.1 (by decide))
  | revoking hr _ _ hb =>
    obtain rfl := hg.events_unique hb.grows
    exact hin rfl rfl (hstate (hr.reconciling hc) (by decide))
  | assigning hr _ _ _ _ hb =>
    obtain rfl := hg.events_unique hb.grows
    exact hin rfl rfl (hstate (hr.reconciling hc) (by decide))
  | @applied _ _ target hr =>
    obtain rfl := hsame rfl
    obtain ⟨hi, he⟩ :=
      Member.identity_conclude { m.member with owned := target, stage := .idle } target
    exact hin hi he (hstate (hr.reconciling hc) (by decide))
  | refused hr =>
    obtain rfl := hsame rfl
    exact hin rfl rfl (hstate (hr.reconciling hc) (by decide))
  | @completed _ _ _ target hgi =>
    obtain rfl := hsame rfl
    have hs := hc.state_of_stage
    rw [hgi] at hs
    obtain ⟨hi, he⟩ := Member.identity_conclude { m.member with stage := .idle } target
    exact hin hi he (hstate hs (by decide))

/-! ### Runs -/

/-- A cause that does not move the member tells of no identity. -/
theorem Moment.identities_of_unmoved {y : Moment}
    (h : y.before.session.Unmoved y.cause y.after.session) : y.identities = [] := by
  rcases Moment.published_of_unmoved h with he | ⟨fs, -, he⟩
  · rw [identities, he]
    rfl
  · rw [identities, he, List.filterMap_map]
    exact List.filterMap_eq_nil_iff.2 fun f _ => rfl

/-- Whatever happens, the caller hears of an identity that is new. -/
theorem Turn.announces {y : Moment} {x z : Member} (h : Turn y.before x y.cause y.after)
    (hx : y.before.Sound x) (hz : y.after.member = some z) : x.Announces z y.identities := by
  have hquiet {w : Member} (hm : y.after.member = some w)
      (hw : w.memberId = x.memberId ∧ w.epoch = x.epoch ∧ w.state = x.state)
      (hg : y.before.session.Unmoved y.cause y.after.session) : x.Announces z y.identities := by
    obtain rfl : w = z := Option.some.inj (hm.symm.trans hz)
    rw [Moment.identities_of_unmoved hg]
    exact .kept hw.1 hw.2.1 fun hs => by rwa [hw.2.2]
  cases h with
  | still _ hm _ hg | picked _ hm _ _ hg | noticed _ hm _ hg => exact hquiet hm ⟨rfl, rfl, rfl⟩ hg
  | @moved t w m f _ hw hmove hm hs =>
    obtain rfl : m.member = z := Option.some.inj (hm.symm.trans hz)
    obtain ⟨es, cs, hg⟩ := hmove.grows
    have he : y.identities = es.filterMap BackgroundEvent.identity? := by
      rw [Moment.identities, Moment.published_eq (hg.trans hs.grows), List.append_nil]
    rw [he]
    exact (hmove.announces (hx.coherent.of_closing hw) hg).of_closing hw

/-- What a heartbeat of the group tells the caller, and what the member then is. -/
theorem Turn.identities_of_success {y : Moment} {x : Member} {memberId : String} {epoch : Int}
    {assignment : Option PartitionSet} (h : Turn y.before x y.cause y.after)
    (hc : y.cause = .heard (.success memberId epoch assignment)) (ha : x.state.isActive = true) :
    y.identities = if memberId ≠ x.memberId ∨ epoch ≠ x.epoch then [(memberId, epoch)] else [] := by
  have htrigger : y.cause.trigger? y.before = some (.heard (.success memberId epoch assignment)) := by
    rw [hc]
    rfl
  cases h with
  | still hn | picked hn | noticed hn =>
    rw [htrigger] at hn
    cases hn
  | @moved t w m f ht hw hmove hm hs =>
    obtain rfl := Option.some.inj (htrigger.symm.trans ht)
    have hlike := Member.like_of_closing hw
    have hid : w.memberId = x.memberId ∧ w.epoch = x.epoch := by
      obtain rfl | rfl := hw <;> exact ⟨rfl, rfl⟩
    have hnews {s : Session} {sub : Subscription}
        (hb : y.before.session.Becomes s sub (w.news memberId epoch) [])
        (hs : m.session = s) (hq : s.Becomes y.after.session s.subscription [] []) :
        y.identities =
          if memberId ≠ x.memberId ∨ epoch ≠ x.epoch then [(memberId, epoch)] else [] := by
      rw [Moment.identities, Moment.published_eq (hb.grows.trans hq.grows), List.append_nil,
        Member.identities_news, hid.1, hid.2]
    cases hmove with
    | identified _ _ hb => exact hnews hb rfl hs
    | retargeted _ _ hb => exact hnews hb rfl hs
    | rest hr =>
      rw [Membership.AtEase, hlike.state, ha] at hr
      cases hr
    | finished hd =>
      obtain ⟨-, hd⟩ | ⟨-, hd⟩ := hd <;> cases hd
    | dropped hd =>
      obtain ⟨hd, -⟩ | ⟨_, _, _, hd, -⟩ := hd <;> cases hd

namespace Chronicle.Lived

/-- All through a run the caller knows the member. -/
theorem known {u : Setup} {k : Chronicle} (h : Lived u.processor k) :
    ∃ x, k.present.Sound x ∧ x.Known (identified k.past).getLast? := by
  induction h with
  | start => exact ⟨u.member, u.sound, Or.inl rfl⟩
  | @undergo k h c ih =>
    obtain ⟨x, hx, hk⟩ := ih
    obtain ⟨z, hz⟩ := hx.undergo c
    have ha := Turn.announces (y := ⟨k.present, c⟩) (hx.turn c) hx hz.member
    exact ⟨z, hz, ha.known hk⟩

/-- An identity of which the caller was told last, and whose epoch has not been set back, is the
identity of the member. -/
theorem identity_of_since {u : Setup} {k : Chronicle} (h : Lived u.processor k)
    {told : String × Int}
    (hs : Since (fun y => y.identities = [] ∧ ¬ y.SetsBack)
      (fun y _ => y.identities.getLast? = some told) k.past) :
    ∃ x, k.present.Sound x ∧ told = (x.memberId, x.epoch) := by
  induction h with
  | start => exact hs.elim
  | @undergo k h c ih =>
    obtain ⟨x, hx⟩ := h.sound u.sound
    obtain ⟨z, hz⟩ := hx.undergo c
    have ha := Turn.announces (y := ⟨k.present, c⟩) (hx.turn c) hx hz.member
    refine ⟨z, hz, ?_⟩
    obtain hs | ⟨⟨hn, hb⟩, hs⟩ := hs
    · refine Option.some.inj (hs.symm.trans (ha.getLast? fun hn => ?_))
      rw [hn] at hs
      cases hs
    · obtain ⟨w, hw, rfl⟩ := ih hs
      obtain rfl : w = x := Option.some.inj (hw.member.symm.trans hx.member)
      rw [hn] at ha
      have he : w.epoch = z.epoch := by
        refine Decidable.byContradiction fun he => hb ⟨hn, ?_⟩
        show k.present.member.map _ ≠ (k.present.undergo c).member.map _
        rw [hx.member, hz.member]
        exact fun h => he (Option.some.inj h)
      rw [ha.memberId, he]

end Chronicle.Lived

namespace Setup

/-- Right after a heartbeat of the group with an epoch other than that of joining, the last identity
that the caller has been told of, over the whole run, is the one that the heartbeat carries; it is
not told again if it was the last already and the epoch has not been set back since. -/
theorem getLast?_identified_of_success (u : Setup) (as : List Action) :
    let k := u.chronicle as
    ∀ later y earlier, k.past = later ++ y :: earlier →
      ∀ memberId epoch assignment, y.cause = .heard (.success memberId epoch assignment) →
        (∃ s, y.before.state? = some s ∧
          (s = .joining ∨ s = .reconciling ∨ s = .acknowledging ∨ s = .stable)) →
        epoch ≠ joinEpoch →
        (identified (y :: earlier)).getLast? = some (memberId, epoch) ∧
          (Since (fun w => w.identities = [] ∧ ¬ w.SetsBack)
            (fun w _ => w.identities.getLast? = some (memberId, epoch)) earlier →
            y.identities = []) := by
  intro k later y earlier hk memberId epoch assignment hc hs hne
  have hlived := (u.lived as).at_moment hk
  obtain ⟨x, hx, hknown⟩ := hlived.known
  have hactive : x.state.isActive = true := by
    obtain ⟨s, hs, hstate⟩ := hs
    rw [Processor.state?_eq hx.member] at hs
    cases hs
    obtain hs | hs | hs | hs := hstate <;> rw [hs] <;> rfl
  have hids := (hx.turn y.cause).identities_of_success hc hactive
  by_cases hnew : memberId ≠ x.memberId ∨ epoch ≠ x.epoch
  · rw [if_pos hnew] at hids
    refine ⟨by rw [identified, hids, List.getLast?_concat], fun hsince => ?_⟩
    obtain ⟨w, hw, heq⟩ := hlived.identity_of_since hsince
    obtain rfl : x = w := Option.some.inj (hx.member.symm.trans hw.member)
    obtain ⟨hi, he⟩ := Prod.mk.inj heq
    exact absurd hnew (by simp [hi, he])
  · rw [if_neg hnew] at hids
    obtain ⟨hi, he⟩ : memberId = x.memberId ∧ epoch = x.epoch :=
      ⟨Decidable.byContradiction fun h => hnew (Or.inl h),
        Decidable.byContradiction fun h => hnew (Or.inr h)⟩
    refine ⟨?_, fun _ => hids⟩
    rw [identified, hids, List.append_nil, hknown.eq hactive (he ▸ hne), hi, he]

/-- The steps after which a member has joined, was fenced, and has been told of the same identity
twice more. -/
def refencedSteps : List Action :=
  firstSteps.take 4 ++
    [.outside (.script { outcomes :=
      [.success "m" 1 none, .fenced, .success "m" 1 none, .success "m" 1 none] }),
    .progress 0]

/-- The caller of a member that was fenced is told of its old identity anew, and then not once more. -/
theorem getLast?_identified_of_success_refenced :
    let k := heartbeatSetup.chronicle refencedSteps
    ∃ later y earlier, k.past = later ++ y :: earlier ∧
      y.cause = .heard (.success "m" 1 none) ∧
      identified earlier = [("m", 1), ("m", 1)] ∧
      (identified (y :: earlier)).getLast? = some ("m", 1) ∧ y.identities = [] := by
  intro k
  have hheard : (k.past[3]?.map fun y => (y.cause.heard?, y.before.state?)) =
      some (some (.success "m" 1 none), some .joining) := by decide +kernel
  have hmark : (k.past[4]?.map fun w => w.identities.getLast?) = some (some ("m", 1)) := by
    decide +kernel
  obtain ⟨y, hy, hheard⟩ := Option.map_eq_some_iff.1 hheard
  obtain ⟨hc, hs⟩ := Prod.mk.inj hheard
  have hpast := past_eq_of_getElem? hy
  have hids : identified (k.past.drop 4) = [("m", 1), ("m", 1)] := by decide +kernel
  have hsince : Since (fun w => w.identities = [] ∧ ¬ w.SetsBack)
      (fun w _ => w.identities.getLast? = some ("m", 1)) (k.past.drop 4) := by
    obtain ⟨w, hw, hwi⟩ := Option.map_eq_some_iff.1 hmark
    obtain ⟨hn, rfl⟩ := List.getElem?_eq_some_iff.1 hw
    rw [List.drop_eq_getElem_cons hn]
    exact Or.inl hwi
  obtain ⟨hlast, hquiet⟩ := getLast?_identified_of_success heartbeatSetup refencedSteps _ y _ hpast
    "m" 1 none (Cause.eq_heard_of_heard? hc) ⟨_, hs, Or.inl rfl⟩ (by decide)
  exact ⟨_, y, _, hpast, Cause.eq_heard_of_heard? hc, hids, hlast, hquiet hsince⟩

end Setup

end GroupConsumer
