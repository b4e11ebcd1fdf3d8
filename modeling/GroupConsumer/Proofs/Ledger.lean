import GroupConsumer.Proofs.Run.Chronicle

/-!
# The ledger of the listener

A listener that writes down what it is told keeps a ledger: what is assigned is entered, what is
revoked or lost is struck out. The stage of the member says how the ledger and what the member owns
go together (`Member.Lists`): they are the same as long as nothing has been announced that is not
done yet. No request contradicts the ledger (`CallbackRequest.Fits`). The group failing a member is
the one exception, since nobody is asked to run the listener then.
-/

namespace GroupConsumer

namespace CallbackRequest

/-- The ledger after a request: what is assigned is added, what is revoked or lost is removed. -/
def enter (ledger : PartitionSet) (r : CallbackRequest) : PartitionSet :=
  match r.method with
  | .partitionsAssigned => SortedSet.ofList (ledger.toList ++ r.partitions.toList)
  | .partitionsRevoked | .partitionsLost => ledger.diff r.partitions

/-- The request goes with the ledger and with what is owned: only partitions outside the ledger are
assigned, and only partitions that are owned are revoked or lost. -/
def Fits (r : CallbackRequest) (ledger owned : PartitionSet) : Prop :=
  match r.method with
  | .partitionsAssigned => ∀ tp ∈ r.partitions, tp ∉ ledger
  | .partitionsRevoked | .partitionsLost => ∀ tp ∈ r.partitions, tp ∈ owned

variable {r : CallbackRequest} {ledger owned : PartitionSet} {tp : TopicPartition}

theorem mem_enter_of_assigned (h : r.method = .partitionsAssigned) :
    tp ∈ enter ledger r ↔ tp ∈ ledger ∨ tp ∈ r.partitions := by
  simp [enter, h, SortedSet.mem_toList]

theorem mem_enter_of_ne_assigned (h : r.method ≠ .partitionsAssigned) :
    tp ∈ enter ledger r ↔ tp ∈ ledger ∧ tp ∉ r.partitions := by
  cases hm : r.method with
  | partitionsAssigned => exact absurd hm h
  | partitionsRevoked | partitionsLost => simp [enter, hm]

theorem fits_of_assigned (h : r.method = .partitionsAssigned) :
    r.Fits ledger owned ↔ ∀ tp ∈ r.partitions, tp ∉ ledger := by
  simp [Fits, h]

theorem fits_of_ne_assigned (h : r.method ≠ .partitionsAssigned) :
    r.Fits ledger owned ↔ ∀ tp ∈ r.partitions, tp ∈ owned := by
  cases hm : r.method with
  | partitionsAssigned => exact absurd hm h
  | partitionsRevoked | partitionsLost => simp [Fits, hm]

end CallbackRequest

/-- The ledger after some requests, the oldest first, that starts with nothing. -/
def ledger (rs : List CallbackRequest) : PartitionSet := rs.foldl CallbackRequest.enter ∅

/-- The requests to run the listener that were published at a moment. -/
def Moment.requests (y : Moment) : List CallbackRequest :=
  y.published.filterMap BackgroundEvent.request?

/-- The requests to run the listener that have been published so far, the oldest first. -/
def requested : List Moment → List CallbackRequest
  | [] => []
  | y :: past => requested past ++ y.requests

theorem ledger_requested_cons (y : Moment) (past : List Moment) :
    ledger (requested (y :: past)) = y.requests.foldl CallbackRequest.enter (ledger (requested past)) := by
  rw [requested, ledger, List.foldl_append]
  rfl

/-- How the ledger goes with what a member owns: what is being given up has been struck out, and
what is being taken over has been entered. -/
def Member.Lists (x : Member) (l : PartitionSet) : Prop :=
  match x.stage with
  | .idle | .committing .. | .assigning .. => l = x.owned
  | .revoking _ target => l = x.owned.inter target
  | .leavingRevoke _ | .lost _ => l = ∅

namespace Member.Lists

variable {x z : Member} {l : PartitionSet} {tp : TopicPartition}

theorem congr (h : x.Lists l) (hg : z.stage = x.stage) (ho : z.owned = x.owned) : z.Lists l := by
  unfold Lists at h ⊢
  rwa [hg, ho]

theorem conclude (h : x.Lists l) (target : PartitionSet) : (x.conclude target).Lists l :=
  h.congr (x.stage_conclude target) (x.owned_conclude target)

theorem of_idle (hg : x.stage = .idle) (h : l = x.owned) : x.Lists l := by
  unfold Lists
  rwa [hg]

theorem eq_owned (h : x.Lists l) (hg : x.stage = .idle) : l = x.owned := by
  unfold Lists at h
  rwa [hg] at h

/-- What is on the ledger is owned. -/
theorem mem_owned (h : x.Lists l) (hl : tp ∈ l) : tp ∈ x.owned := by
  unfold Lists at h
  cases hg : x.stage with
  | idle | committing | assigning =>
    rw [hg] at h
    exact h ▸ hl
  | revoking i target =>
    rw [hg] at h
    rw [h] at hl
    exact (SortedSet.mem_inter.1 hl).1
  | leavingRevoke | lost =>
    rw [hg] at h
    rw [h] at hl
    exact absurd hl (SortedSet.not_mem_empty tp)

/-- The ledger of a member that owns nothing is empty. -/
theorem eq_empty (h : x.Lists l) (ho : x.owned = ∅) : l = ∅ := by
  refine SortedSet.ext fun tp => ⟨fun hl => ?_, fun hl => absurd hl (SortedSet.not_mem_empty tp)⟩
  rw [← ho]
  exact h.mem_owned hl

/-- Once the loss of all partitions was announced, the ledger is empty. -/
theorem eq_empty_of_lost {i : SlotId} (h : x.Lists l)
    (hg : x.stage = .leavingRevoke i ∨ x.stage = .lost i) : l = ∅ := by
  unfold Lists at h
  obtain hg | hg := hg <;> rwa [hg] at h

/-- A member that sets out for nothing and owns nothing. -/
theorem of_nothing (hg : x.stage = .idle) (ho : x.owned = ∅) (h : l = ∅) : x.Lists l :=
  of_idle hg (h.trans ho.symm)

end Member.Lists

/-- What is in `t` is in `s` as well. -/
theorem SortedSet.inter_eq_right {s t : PartitionSet} (h : t.diff s = ∅) : s.inter t = t := by
  ext tp
  refine ⟨fun htp => (mem_inter.1 htp).2, fun htp => mem_inter.2 ⟨?_, htp⟩⟩
  refine Decidable.byContradiction fun hn => not_mem_empty tp ?_
  rw [← h]
  exact mem_diff.2 ⟨htp, hn⟩

/-- The news of an identity ask for no run of the listener. -/
theorem Member.requests_news (x : Member) (memberId : String) (epoch : Int) :
    (x.news memberId epoch).filterMap BackgroundEvent.request? = [] := by
  unfold news
  split <;> rfl

/-! ### Moves -/

namespace Membership

variable {m : Membership} {l target : PartitionSet} {commits : Bool}

/-- When a target is to be taken over, what is not in it has been struck out. -/
theorem TakesNext.ledger_eq (h : m.TakesNext target) (hl : m.member.Lists l) :
    l = m.member.owned.inter target := by
  obtain ⟨⟨hg, -⟩, ho⟩ | ⟨i, hg, -⟩ := h
  · rw [hl.eq_owned hg]
    ext tp
    refine ⟨fun htp => SortedSet.mem_inter.2 ⟨htp, ?_⟩, fun htp => (SortedSet.mem_inter.1 htp).1⟩
    refine Decidable.byContradiction fun hn => SortedSet.not_mem_empty tp ?_
    rw [← ho]
    exact SortedSet.mem_diff.2 ⟨htp, hn⟩
  · unfold Member.Lists at hl
    rwa [hg] at hl

/-- When partitions are to be given up, nothing has been struck out yet. -/
theorem RevokesNext.ledger_eq (h : m.RevokesNext commits target) (hl : m.member.Lists l) :
    l = m.member.owned := by
  obtain ⟨-, ⟨⟨hg, -⟩, -⟩ | ⟨i, hg, -⟩⟩ := h
  · exact hl.eq_owned hg
  · unfold Member.Lists at hl
    rwa [hg] at hl

end Membership

namespace Session

/-- What was published can be told from where it has led. -/
theorem Grows.events_unique {s t : Session} {es es' : List BackgroundEvent} {cs cs' : List Call}
    (h : s.Grows t es cs) (h' : s.Grows t es' cs') : es = es' :=
  List.append_cancel_left (h.events.symm.trans h'.events)

end Session

/-- What becomes of the ledger when `x` turns into `z` and asks for some runs of the listener: it is
right again if it was, and it goes with what is asked for. -/
inductive Member.Enters (x z : Member) (l : PartitionSet) : List CallbackRequest → Prop
  | nothing (h : z.state ≠ .fatal → z.Lists l) : Enters x z l []
  | request {r : CallbackRequest} (hf : r.Fits l x.owned)
      (h : z.Lists (CallbackRequest.enter l r)) : Enters x z l [r]

namespace Member.Enters

variable {x z : Member} {l : PartitionSet} {rs : List CallbackRequest}

theorem lists (h : Enters x z l rs) (hs : z.state ≠ .fatal) :
    z.Lists (rs.foldl CallbackRequest.enter l) := by
  cases h with
  | nothing h => exact h hs
  | request _ h => exact h

theorem fits (h : Enters x z l rs) {r : CallbackRequest} (hr : r ∈ rs) :
    rs = [r] ∧ r.Fits l x.owned := by
  cases h with
  | nothing => cases hr
  | request hf =>
    obtain rfl := List.mem_singleton.1 hr
    exact ⟨rfl, hf⟩

/-- All that matters of the member before is what it owned. -/
theorem of_owned (h : Enters x z l rs) {x' : Member} (ho : x'.owned = x.owned) :
    Enters x' z l rs := by
  cases h with
  | nothing h => exact .nothing h
  | request hf h => exact .request (by rwa [ho]) h

end Member.Enters

namespace Membership

variable {m : Membership} {z : Member} {l : PartitionSet}

/-- All that is owned is announced to be given up. -/
theorem enters_given_up {r : CallbackRequest} (hl : m.member.Lists l)
    (hm : r.method ≠ .partitionsAssigned) (hp : r.partitions = m.member.owned)
    (hz : z.Lists ∅) : m.member.Enters z l [r] := by
  have hempty : CallbackRequest.enter l r = ∅ := by
    ext tp
    rw [CallbackRequest.mem_enter_of_ne_assigned hm, hp]
    exact ⟨fun h => absurd (hl.mem_owned h.1) h.2, fun h => absurd h (SortedSet.not_mem_empty tp)⟩
  refine .request ((CallbackRequest.fits_of_ne_assigned hm).2 fun tp htp => ?_) ?_
  · rwa [hp] at htp
  · rwa [hempty]

/-- What is not in the target is announced to be given up. -/
theorem enters_revoked {r : CallbackRequest} {commits : Bool} {target : PartitionSet}
    (h : m.RevokesNext commits target) (hl : m.member.Lists l)
    (hm : r.method = .partitionsRevoked) (hp : r.partitions = m.member.owned.diff target)
    (hz : z.Lists (m.member.owned.inter target)) : m.member.Enters z l [r] := by
  have hne : r.method ≠ .partitionsAssigned := by
    rw [hm]
    decide
  have hkept : CallbackRequest.enter l r = m.member.owned.inter target := by
    ext tp
    rw [CallbackRequest.mem_enter_of_ne_assigned hne, hp, h.ledger_eq hl, SortedSet.mem_diff,
      SortedSet.mem_inter]
    grind
  refine .request ((CallbackRequest.fits_of_ne_assigned hne).2 fun tp htp => ?_) ?_
  · rw [hp] at htp
    exact (SortedSet.mem_diff.1 htp).1
  · rwa [hkept]

/-- What is new in the target is announced. -/
theorem enters_assigned {r : CallbackRequest} {target : PartitionSet} (h : m.TakesNext target)
    (hl : m.member.Lists l) (hm : r.method = .partitionsAssigned)
    (hp : r.partitions = target.diff m.member.owned) (hz : z.Lists target) :
    m.member.Enters z l [r] := by
  have hall : CallbackRequest.enter l r = target := by
    ext tp
    rw [CallbackRequest.mem_enter_of_assigned hm, hp, h.ledger_eq hl, SortedSet.mem_diff,
      SortedSet.mem_inter]
    grind
  refine .request ((CallbackRequest.fits_of_assigned hm).2 fun tp htp hn => ?_) ?_
  · rw [hp] at htp
    exact (SortedSet.mem_diff.1 htp).2 (hl.mem_owned hn)
  · rwa [hall]

end Membership

namespace Move

variable {m m' : Membership} {t : Trigger} {f : Option Fault} {l : PartitionSet}

/-- A move leaves the ledger right. -/
theorem enters (h : Move m t m' f) (hc : m.member.Coherent) (ha : m.Agrees)
    (hl : m.member.state ≠ .fatal → m.member.Lists l) {es : List BackgroundEvent}
    {cs : List Call} (hg : m.session.Grows m'.session es cs) :
    m.member.Enters m'.member l (es.filterMap BackgroundEvent.request?) := by
  have hquiet {sub : Subscription} {cs' : List Call}
      (hs : m.session.Becomes m'.session sub [] cs') : es = [] := hg.events_unique hs.grows
  have hsame {sub : Subscription}
      (hs : m'.session = { m.session with subscription := sub }) : es = [] := by
    have hb := Session.becomes_subscription m.session sub
    rw [← hs] at hb
    exact hquiet hb
  have hactive (ha : m.member.state.isActive = true) : m.member.Lists l := by
    refine hl fun hs => ?_
    rw [hs] at ha
    cases ha
  have hstate {s : MemberState} (hs : m.member.state = s) (hne : s ≠ .fatal) : m.member.Lists l :=
    hl fun hf => hne (hs.symm.trans hf)
  cases h with
  | rest =>
    obtain rfl := hsame rfl
    exact .nothing hl
  | noted =>
    obtain rfl := hsame rfl
    exact .nothing hl
  | joined hj =>
    obtain rfl := hsame rfl
    obtain ⟨hr, -⟩ := hc.of_unsubscribed hj.2.1
    exact .nothing fun _ => (hstate hj.2.1 (by decide)).congr hr.1.symm rfl
  | identified ha' _ hs =>
    rw [hg.events_unique hs.grows, Member.requests_news]
    exact .nothing fun _ => (hactive ha').congr rfl rfl
  | retargeted ha' _ hs =>
    rw [hg.events_unique hs.grows, Member.requests_news]
    exact .nothing fun _ => (hactive ha').congr rfl rfl
  | settled hs =>
    obtain rfl := hsame rfl
    exact .nothing fun _ => (hstate hs (by decide)).congr rfl rfl
  | finished hs hb =>
    obtain rfl := hquiet hb
    have hleaving : m.member.state.isLeaving = true := by
      obtain ⟨hs, -⟩ | ⟨hs, -⟩ := hs
      · rw [hs]
        rfl
      · exact hs
    have hempty : l = ∅ := by
      obtain hs | hs := MemberState.eq_of_isLeaving hleaving
      · obtain ⟨⟨i, hgi⟩, -⟩ := hc.of_prepareLeaving hs
        exact (hstate hs (by decide)).eq_empty_of_lost (Or.inl hgi)
      · exact (hstate hs (by decide)).eq_empty (hc.owned_eq_empty (Or.inr (Or.inr hs)))
    exact .nothing fun _ => .of_nothing rfl rfl hempty
  | fenced ha' ho hm hp hs =>
    obtain rfl := hg.events_unique hs.grows
    exact Membership.enters_given_up (hactive ha') (by rw [hm]; decide) hp rfl
  | dropped hd =>
    obtain rfl := hsame rfl
    have hempty : l = ∅ := by
      obtain ⟨-, ha', ho⟩ | ⟨-, -, i, -, hgi, -⟩ := hd
      · exact (hactive ha').eq_empty ho
      · have hs := hc.state_of_stage
        rw [hgi] at hs
        exact (hstate hs (by decide)).eq_empty_of_lost (Or.inr hgi)
    exact .nothing fun _ => .of_nothing rfl rfl hempty
  | failed _ hs =>
    obtain rfl := hg.events_unique hs.grows
    exact .nothing fun hf => absurd rfl hf
  | forgot hs hb =>
    obtain rfl := hquiet hb
    refine .nothing fun hf => ?_
    obtain hs | hs := hs
    · obtain ⟨hr, -, ho, -⟩ := hc.of_unsubscribed hs
      exact .of_nothing hr.1 rfl ((hstate hs (by decide)).eq_empty ho)
    · exact absurd hs hf
  | abandoned hs hb =>
    obtain rfl := hquiet hb
    obtain ⟨⟨i, hgi⟩, -⟩ := hc.of_fenced hs
    have hempty := (hstate hs (by decide)).eq_empty_of_lost (Or.inr hgi)
    exact .nothing fun _ => .of_nothing rfl rfl hempty
  | departed ha' ho hb =>
    obtain rfl := hquiet hb
    exact .nothing fun _ => .of_nothing rfl rfl ((hactive ha').eq_empty ho)
  | departing ha' ho hm hp hs =>
    obtain rfl := hg.events_unique hs.grows
    exact Membership.enters_given_up (hactive ha') (by rw [hm]; decide) hp rfl
  | vacated hgi hd =>
    obtain rfl := hsame rfl
    have hs := hc.state_of_stage
    rw [hgi] at hs
    have hempty := (hstate hs (by decide)).eq_empty_of_lost (Or.inl hgi)
    exact .nothing fun _ => .of_nothing rfl rfl hempty
  | committing hst ho hf hs =>
    obtain rfl := hquiet hs
    exact .nothing fun _ => (hstate hst.2.1 (by decide)).eq_owned hst.1
  | revoking hr hm hp hs =>
    obtain rfl := hg.events_unique hs.grows
    exact Membership.enters_revoked hr (hstate (hr.reconciling hc) (by decide)) hm hp rfl
  | assigning hr hauto ho hm hp hs =>
    obtain rfl := hg.events_unique hs.grows
    exact Membership.enters_assigned hr (hstate (hr.reconciling hc) (by decide)) hm hp rfl
  | @applied _ _ target hr hauto ho =>
    obtain rfl := hsame rfl
    have hm := hstate (hr.reconciling hc) (by decide)
    have htarget : l = target := by
      rw [hr.ledger_eq hm]
      exact SortedSet.inter_eq_right ho
    have hn : Member.Lists { m.member with owned := target, stage := .idle } l :=
      .of_idle rfl htarget
    exact .nothing fun _ => hn.conclude target
  | refused hr hauto =>
    obtain rfl := hsame rfl
    have hm := hstate (hr.reconciling hc) (by decide)
    have ho := ha.other hauto
    exact .nothing fun _ => .of_nothing rfl ho (hm.eq_empty ho)
  | @completed _ _ _ target hgi hd =>
    obtain rfl := hsame rfl
    have hs := hc.state_of_stage
    rw [hgi] at hs
    have hm := hstate hs (by decide)
    unfold Member.Lists at hm
    rw [hgi] at hm
    have hn : Member.Lists { m.member with stage := .idle } l := .of_idle rfl hm
    exact .nothing fun _ => hn.conclude target

end Move

/-! ### Runs -/

/-- A cause that does not move the member asks for no run of the listener. -/
theorem Moment.requests_of_unmoved {y : Moment}
    (h : y.before.session.Unmoved y.cause y.after.session) : y.requests = [] := by
  rcases Moment.published_of_unmoved h with he | ⟨fs, -, he⟩
  · rw [requests, he]
    rfl
  · rw [requests, he, List.filterMap_map]
    exact List.filterMap_eq_nil_iff.2 fun f _ => rfl

/-- Whatever happens leaves the ledger right. -/
theorem Turn.enters {y : Moment} {x z : Member} {l : PartitionSet}
    (h : Turn y.before x y.cause y.after) (hx : y.before.Sound x) (hz : y.after.member = some z)
    (hl : x.state ≠ .fatal → x.Lists l) :
    x.Enters z l y.requests := by
  have hstill (hm : y.after.member = some x) (hg : y.before.session.Unmoved y.cause y.after.session) :
      x.Enters z l y.requests := by
    obtain rfl : x = z := Option.some.inj (hm.symm.trans hz)
    rw [Moment.requests_of_unmoved hg]
    exact .nothing hl
  cases h with
  | still _ hm _ hg => exact hstill hm hg
  | picked _ hm _ _ hg => exact hstill hm hg
  | noticed _ hm _ hg =>
    obtain rfl := Option.some.inj (hm.symm.trans hz)
    rw [Moment.requests_of_unmoved hg]
    exact .nothing hl
  | @moved t x' m f _ hx' hmove hm hs =>
    obtain rfl : m.member = z := Option.some.inj (hm.symm.trans hz)
    obtain ⟨es, cs, hg⟩ := hmove.grows
    have he : y.requests = es.filterMap BackgroundEvent.request? := by
      rw [Moment.requests, Moment.published_eq (hg.trans hs.grows), List.append_nil]
    have hagrees : Membership.Agrees ⟨x', y.before.session⟩ :=
      hx.agrees.congr rfl (Member.like_of_closing hx').owned
    rw [he]
    have hlike := Member.like_of_closing hx'
    refine (hmove.enters (hx.coherent.of_closing hx') hagrees (fun hs => ?_) hg).of_owned
      hlike.owned.symm
    exact (hl fun hf => hs (hlike.state.trans hf)).congr hlike.stage hlike.owned

namespace Chronicle.Lived

/-- All through a run the ledger goes with what the member owns, unless the group has failed it. -/
theorem lists {u : Setup} {k : Chronicle} (h : Lived u.processor k) :
    ∃ x, k.present.Sound x ∧ (x.state ≠ .fatal → x.Lists (ledger (requested k.past))) := by
  induction h with
  | start => exact ⟨u.member, u.sound, fun _ => rfl⟩
  | @undergo k h c ih =>
    obtain ⟨x, hx, hl⟩ := ih
    obtain ⟨z, hz⟩ := hx.undergo c
    have he := Turn.enters (y := ⟨k.present, c⟩) (hx.turn c) hx hz.member hl
    refine ⟨z, hz, fun hs => ?_⟩
    show z.Lists (ledger (requested (⟨k.present, c⟩ :: k.past)))
    rw [ledger_requested_cons]
    exact he.lists hs

end Chronicle.Lived

namespace Setup

/-- All through a run the stage of the member says how the ledger of the listener goes with what is
owned, unless the group has failed the member. Nothing is assigned that is on the ledger, and nothing
is revoked or lost that is not owned. -/
theorem lists_of_stage (u : Setup) (as : List Action) :
    let k := u.chronicle as
    ∃ x, k.present.member = some x ∧
      (x.state ≠ .fatal → x.Lists (ledger (requested k.past))) ∧
      ∀ later y earlier, k.past = later ++ y :: earlier → ∀ r ∈ y.requests, ∃ z,
        y.before.member = some z ∧ y.requests = [r] ∧
          r.Fits (ledger (requested earlier)) z.owned := by
  intro k
  obtain ⟨x, hx, hl⟩ := (u.lived as).lists
  refine ⟨x, hx.member, hl, fun later y earlier hk r hr => ?_⟩
  obtain ⟨z, hz, hlz⟩ := ((u.lived as).at_moment hk).lists
  obtain ⟨z', hz'⟩ := hz.undergo y.cause
  obtain ⟨hone, hfits⟩ := (Turn.enters (hz.turn y.cause) hz hz'.member hlz).fits hr
  exact ⟨z, hz.member, hone, hfits⟩

/-- The steps after which a member is to give its first partition back, and the caller has been
asked to. -/
def returningSteps : List Action :=
  firstSteps ++ [listenerRun .partitionsAssigned 2,
    .outside (.script { outcomes := [.success "m" 1 (some ∅)] }), .progress 0]

/-- What the caller has been asked to give back is owned still, but is not on the ledger any more. -/
theorem lists_of_stage_returning :
    let k := heartbeatSetup.chronicle returningSteps
    ∃ x, k.present.member = some x ∧ x.stage = .revoking 3 ∅ ∧
      ledger (requested k.past) = x.owned.inter ∅ ∧
      ∃ y ∈ k.past, ∃ r ∈ y.requests, r.method = .partitionsRevoked ∧
        ∃ z, y.before.member = some z ∧ ∀ tp ∈ r.partitions, tp ∈ z.owned := by
  intro k
  have hk : k.present.member.map (fun x => (x.state, x.stage)) =
      some (.reconciling, .revoking 3 ∅) := by decide +kernel
  have hy : (k.past[3]?.map fun y => y.requests.map (·.method)) = some [.partitionsRevoked] := by
    decide +kernel
  obtain ⟨x, hm, hl, hr⟩ := lists_of_stage heartbeatSetup returningSteps
  rw [hm] at hk
  obtain ⟨hs, hg⟩ := Prod.mk.inj (Option.some.inj hk)
  have hlists := hl (by rw [hs]; decide)
  unfold Member.Lists at hlists
  rw [hg] at hlists
  obtain ⟨y, hy, hrs⟩ := Option.map_eq_some_iff.1 hy
  obtain ⟨r, hmem, hrm⟩ : ∃ r ∈ y.requests, r.method = .partitionsRevoked :=
    List.mem_map.1 (hrs ▸ List.mem_singleton_self _)
  obtain ⟨z, hz, -, hf⟩ := hr _ y _ (past_eq_of_getElem? hy) r hmem
  refine ⟨x, hm, hg, hlists, y, List.mem_of_getElem? hy, r, hmem, hrm, z, hz, ?_⟩
  exact (CallbackRequest.fits_of_ne_assigned (by rw [hrm]; decide)).1 hf

end Setup

end GroupConsumer
