import GroupConsumer.Proofs.Run.Chronicle

/-!
# No target is lost

`latestTarget past` is the last assignment that a heartbeat brought to a member that took part in
the group, since the member joined. A member whose assignment is applied owns just that
(`latestTarget_of_state`), and one that is still on its way is on its way there, whatever other
targets came while it was committing, revoking or assigning.
-/

namespace GroupConsumer

/-- The assignment that a trigger brings to a member in a state, if it takes part in its group. -/
def Trigger.assignment? (t : Trigger) (s : MemberState) : Option PartitionSet :=
  match t with
  | .heard (.success _ _ assignment) => if s.isActive then assignment else none
  | _ => none

namespace Moment

/-- The assignment that the moment brings to a member that takes part in its group. -/
def assignment? (y : Moment) : Option PartitionSet :=
  match y.cause.trigger? y.before, y.before.state? with
  | some t, some s => t.assignment? s
  | _, _ => none

/-- Whether the member enters a state at the moment. -/
def enters (y : Moment) (s : MemberState) : Bool :=
  y.before.state? ≠ some s && y.after.state? = some s

end Moment

/-- The last assignment that was brought to the member since it joined. -/
def latestTarget : List Moment → Option PartitionSet
  | [] => none
  | y :: past =>
    match y.assignment? with
    | some target => some target
    | none => if y.enters .joining then none else latestTarget past

/-- A member is at the target `latest`, or on its way there. -/
def Member.Pursues (x : Member) (latest : Option PartitionSet) : Prop :=
  match x.state with
  | .acknowledging | .stable => latest = some x.owned
  | .reconciling => latest = x.target
  | .joining => latest = none
  | .unsubscribed | .fenced | .prepareLeaving | .leaving | .fatal => True

namespace Member

variable {x : Member} {latest : Option PartitionSet}

theorem Pursues.like (h : x.Pursues latest) {y : Member} (hy : x.Like y) : y.Pursues latest := by
  unfold Pursues at h ⊢
  rwa [hy.state, hy.owned, hy.target]

/-- A target that is in place is the latest one, or the latest one is still to be reached. -/
theorem Pursues.conclude (hs : x.state = .reconciling) (h : latest = x.target) :
    (x.conclude x.owned).Pursues latest := by
  unfold Member.conclude
  split
  · rename_i ht
    exact h.trans ht
  · unfold Pursues
    rw [hs]
    exact h

theorem Pursues.of_reconciling (h : x.Pursues latest) (hs : x.state = .reconciling) :
    latest = x.target := by
  unfold Pursues at h
  rwa [hs] at h

theorem pursues_of_not_isActive (hs : x.state.isActive = false) : x.Pursues latest := by
  unfold Pursues
  cases hx : x.state with
  | joining | reconciling | acknowledging | stable =>
    rw [hx] at hs
    cases hs
  | _ => trivial

end Member

/-- The latest target after a trigger that took the member from the state `s` to the state `s'`. -/
def Trigger.latest (t : Trigger) (s s' : MemberState) (latest : Option PartitionSet) :
    Option PartitionSet :=
  match t.assignment? s with
  | some target => some target
  | none => if s ≠ .joining ∧ s' = .joining then none else latest

theorem Trigger.latest_eq {t : Trigger} {s s' : MemberState} {latest : Option PartitionSet}
    (ht : t.assignment? s = none) (hs : s' = .joining → s = .joining) :
    t.latest s s' latest = latest := by
  rw [Trigger.latest, ht]
  exact if_neg fun h => h.1 (hs h.2)

/-- A member that enters the state joining has no target yet. -/
theorem Trigger.latest_of_joins {t : Trigger} {s : MemberState} {latest : Option PartitionSet}
    (ht : t.assignment? s = none) (hs : s ≠ .joining) : t.latest s .joining latest = none := by
  rw [Trigger.latest, ht]
  exact if_pos ⟨hs, rfl⟩

namespace Move

variable {m m' : Membership} {t : Trigger} {f : Option Fault} {latest : Option PartitionSet}

theorem assignment?_of_atEase (h : m.AtEase t) : t.assignment? m.member.state = none := by
  cases t with
  | heard o =>
    cases o with
    | success memberId epoch assignment =>
      have ha : m.member.state.isActive = false := h
      rw [Trigger.assignment?, ha]
      rfl
    | _ => rfl
  | _ => rfl

/-- A step that takes over no target leaves a reconciling member reconciling. -/
theorem pursues_of_reconciling {x y : Member} {commits : Bool} {now : Int64}
    (hs : x.state = .reconciling) (hx : x.Pursues latest) (hy : y.state = .reconciling)
    (ht : y.target = x.target) :
    y.Pursues (Trigger.latest (.advanced commits now) x.state y.state latest) := by
  rw [Trigger.latest_eq rfl (by simp [hy])]
  unfold Member.Pursues
  rw [hy, ht]
  exact hx.of_reconciling hs

/-- When a target is in place, it is the latest one, or the member goes on. -/
theorem pursues_conclude {x y : Member} {commits : Bool} {now : Int64} {target : PartitionSet}
    (hs : x.state = .reconciling) (hx : x.Pursues latest) (hy : y.state = .reconciling)
    (ht : y.target = x.target) (ho : y.owned = target) :
    (y.conclude target).Pursues
      (Trigger.latest (.advanced commits now) x.state (y.conclude target).state latest) := by
  subst ho
  have hp := Member.Pursues.conclude hy ((hx.of_reconciling hs).trans ht.symm)
  have hj : (y.conclude y.owned).state = .joining → x.state = .joining := by
    intro hj
    obtain h | h := y.state_conclude y.owned
    · rw [h] at hj
      cases hj
    · rw [h, hy] at hj
      cases hj
  rwa [Trigger.latest_eq rfl hj]

/-- A move of a member that pursues the latest target leads to one that does. -/
theorem pursues (h : Move m t m' f) (hc : m.member.Coherent) (hp : m.member.Pursues latest) :
    m'.member.Pursues (t.latest m.member.state m'.member.state latest) := by
  cases h with
  | rest h =>
    rw [Trigger.latest_eq (assignment?_of_atEase h) id]
    exact hp
  | noted =>
    rw [Trigger.latest_eq rfl id]
    exact hp
  | joined hj =>
    rw [Trigger.latest_of_joins rfl (by simp [hj.2.1])]
    exact rfl
  | @identified memberId epoch assignment s ha hn =>
    have ht : (Trigger.heard (.success memberId epoch assignment)).assignment? m.member.state =
        assignment := by
      rw [Trigger.assignment?, ha]
      rfl
    obtain rfl | ⟨hs, rfl⟩ := hn
    · rw [Trigger.latest_eq ht id]
      exact hp
    · rw [Trigger.latest, ht]
      unfold Member.Pursues
      rw [hs]
  | @retargeted memberId epoch target s ha =>
    have ht : (Trigger.heard (.success memberId epoch (some target))).assignment? m.member.state =
        some target := by
      rw [Trigger.assignment?, ha]
      rfl
    rw [Trigger.latest, ht]
    exact rfl
  | settled hs =>
    rw [Trigger.latest_eq rfl (by simp)]
    unfold Member.Pursues at hp
    rw [hs] at hp
    exact hp
  | finished => exact Member.pursues_of_not_isActive rfl
  | fenced => exact Member.pursues_of_not_isActive rfl
  | dropped hd =>
    have ht : t.assignment? m.member.state = none := by
      obtain ⟨rfl, -⟩ | ⟨commits, now, i, rfl, -⟩ := hd <;> rfl
    unfold Member.Pursues
    obtain hs | hs := m.member.stateAfterLoss_eq m.session.subscription.isAuto
    · simp only [hs]
    · simp only [hs]
      by_cases hj : m.member.state = .joining
      · rw [Trigger.latest_eq ht fun _ => hj]
        unfold Member.Pursues at hp
        rwa [hj] at hp
      · exact Trigger.latest_of_joins ht hj
  | failed => exact Member.pursues_of_not_isActive rfl
  | forgot hs =>
    refine Member.pursues_of_not_isActive ?_
    obtain hs | hs := hs <;> rw [hs] <;> rfl
  | abandoned => exact Member.pursues_of_not_isActive rfl
  | departed => exact Member.pursues_of_not_isActive rfl
  | departing => exact Member.pursues_of_not_isActive rfl
  | vacated => exact Member.pursues_of_not_isActive rfl
  | committing hst => exact pursues_of_reconciling hst.2.1 hp hst.2.1 rfl
  | revoking hr => exact pursues_of_reconciling (hr.reconciling hc) hp (hr.reconciling hc) rfl
  | assigning hr => exact pursues_of_reconciling (hr.reconciling hc) hp (hr.reconciling hc) rfl
  | applied hr => exact pursues_conclude (hr.reconciling hc) hp (hr.reconciling hc) rfl rfl
  | refused hr => exact pursues_of_reconciling (hr.reconciling hc) hp (hr.reconciling hc) rfl
  | @completed commits now i target hg =>
    have hs := hc.state_of_stage
    rw [hg] at hs
    have ho := (hc.of_reconciling hs).1
    rw [Member.OnTheWay, hg] at ho
    exact pursues_conclude hs hp hs rfl ho

end Move

/-! ### Runs -/

/-- A cause that is no trigger brings no target. -/
theorem latestTarget_cons_of_still {p : Processor} {c : Cause} {past : List Moment}
    (hc : c.trigger? p = none) (hs : (p.undergo c).state? = p.state?) :
    latestTarget (⟨p, c⟩ :: past) = latestTarget past := by
  have ha : Moment.assignment? ⟨p, c⟩ = none := by
    rw [Moment.assignment?, hc]
  have he : Moment.enters ⟨p, c⟩ .joining = false := by
    rw [Moment.enters, Moment.after, hs]
    by_cases h : p.state? = some .joining <;> simp [h]
  rw [latestTarget, ha, he]
  rfl

theorem latestTarget_cons_of_moved {p : Processor} {c : Cause} {past : List Moment} {t : Trigger}
    {x y : Member} (hc : c.trigger? p = some t) (hx : p.member = some x)
    (hy : (p.undergo c).member = some y) :
    latestTarget (⟨p, c⟩ :: past) = t.latest x.state y.state (latestTarget past) := by
  have hp : p.state? = some x.state := Processor.state?_eq hx
  have hq : (p.undergo c).state? = some y.state := Processor.state?_eq hy
  have ha : Moment.assignment? ⟨p, c⟩ = t.assignment? x.state := by
    rw [Moment.assignment?, hc, hp]
  have he : Moment.enters ⟨p, c⟩ .joining = true ↔ x.state ≠ .joining ∧ y.state = .joining := by
    rw [Moment.enters, Moment.after, hp, hq]
    simp
  rw [latestTarget, Trigger.latest, ha]
  simp only [he]

/-- All through a run the member is at the latest target, or on its way there. -/
theorem Chronicle.Lived.pursues {u : Setup} {k : Chronicle} (h : Lived u.processor k) :
    ∃ x, k.present.Sound x ∧ x.Pursues (latestTarget k.past) := by
  induction h with
  | start => exact ⟨u.member, u.sound, trivial⟩
  | @undergo k h c ih =>
    obtain ⟨x, hx, hp⟩ := ih
    have hk : (k.undergo c).past = ⟨k.present, c⟩ :: k.past := rfl
    obtain ⟨z, hz⟩ := hx.undergo c
    refine ⟨z, hz, ?_⟩
    obtain ⟨hc, hlike⟩ | ⟨t, y, s, f, hc, hlike, hy, hmove, -⟩ :=
      (hx.turn c).still_or_moved hx.coherent hz.member
    · have hst : (k.present.undergo c).state? = k.present.state? := by
        rw [Processor.state?_eq hz.member, Processor.state?_eq hx.member, hlike.state]
      rw [hk, latestTarget_cons_of_still hc hst]
      exact hp.like hlike
    · rw [hk, latestTarget_cons_of_moved hc hx.member hz.member, ← hlike.state]
      exact hmove.pursues hy (hp.like hlike)

namespace Setup

/-- No target is lost: a member whose assignment is applied owns the latest target, one that is
reconciling has it before it, and one that is joining has been given none. -/
theorem latestTarget_of_state (u : Setup) (as : List Action) :
    let k := u.chronicle as
    ∃ x, k.present.member = some x ∧
      (x.state = .acknowledging ∨ x.state = .stable → latestTarget k.past = some x.owned) ∧
      (x.state = .reconciling → ∃ target, latestTarget k.past = some target ∧
        x.target = some target) ∧
      (x.state = .joining → latestTarget k.past = none) := by
  intro k
  obtain ⟨x, hx, hp⟩ := (u.lived as).pursues
  refine ⟨x, hx.member, ?_, ?_, ?_⟩
  · rintro (hs | hs)
    · unfold Member.Pursues at hp
      rwa [hs] at hp
    · unfold Member.Pursues at hp
      rwa [hs] at hp
  · intro hs
    obtain ⟨target, ht⟩ := Option.isSome_iff_exists.1 (hx.coherent.of_reconciling hs).2.2
    exact ⟨target, (hp.of_reconciling hs).trans ht, ht⟩
  · intro hs
    unfold Member.Pursues at hp
    rwa [hs] at hp

/-- A member that was given its first partition has it before it while its listener runs. -/
theorem latestTarget_of_state_firstSteps :
    ∃ x target, (firstSetup.chronicle firstSteps).present.member = some x ∧
      x.state = .reconciling ∧ latestTarget (firstSetup.chronicle firstSteps).past = some target ∧
      x.target = some target := by
  have hst : (firstSetup.chronicle firstSteps).present.state? = some .reconciling := by
    decide +kernel
  obtain ⟨x, hx, -, htarget, -⟩ := latestTarget_of_state firstSetup firstSteps
  have hs : x.state = .reconciling :=
    Option.some.inj ((Processor.state?_eq hx).symm.trans hst)
  obtain ⟨target, hl, ht⟩ := htarget hs
  exact ⟨x, target, hx, hs, hl, ht⟩

end Setup

end GroupConsumer
