import GroupConsumer.Proofs.Run.Apart
import GroupConsumer.Proofs.Settling

/-!
# Abandoned futures are inert

A member may drop a stage while the caller still runs a callback for it, or while the commit manager
still commits. The future that was handed out is then completed much later, possibly while another stage
waits for a callback of the same method. This changes nothing: not the member, not the subscription, and
nothing that comes of either, whatever happens next (`abandoned_inert`). A slot that was made for one
request is in no other use (`Lived.calm`), so a run in which it is completed and one in which it is not
stay twins.
-/

namespace GroupConsumer

/-- The action completes the slot: somebody outside does, or the caller reports that it ran its
listener. -/
def Action.Completes (a : Action) (i : SlotId) : Prop :=
  (∃ o, a = .outside (.settle i o)) ∨ ∃ method fault, a = .process (.callbackDone method i fault)

namespace Membership

variable {D : SlotId → Prop} {m n : Membership} {commits : Bool} {now : Int64}

/-- Reconciliation has settled: run once more, it changes nothing. -/
def Rests (m : Membership) (commits : Bool) (now : Int64) : Prop :=
  (m.reconcile commits now).membership = m

theorem Settled.rests (h : m.Settled) (commits : Bool) (now : Int64) : m.Rests commits now := by
  rw [Rests, reconcile, advanceWithin, h.advance]
  rfl

/-- A member for which reconciliation has settled has nothing to do, or cannot do it. -/
theorem Rests.cases (h : m.Rests commits now) (hc : m.member.Coherent) (ha : m.Agrees) :
    m.Settled ∨ ∃ f, ∀ commits now, m.advance commits now = .error ⟨f, m⟩ := by
  obtain ⟨m₁, -, ⟨m', hr, -, hs⟩ | ⟨f, hr, hadv⟩, -⟩ :=
    @ends_of_advanceWithin m commits now hc ha 4 (Nat.lt_succ_of_le m.stepsLeft_le)
  · have hm : m' = m := by
      rw [Rests, reconcile, hr] at h
      exact h
    exact Or.inl (hm ▸ hs)
  · have hm : m₁ = m := by
      rw [Rests, reconcile, hr] at h
      exact h
    exact Or.inr ⟨f, hm ▸ hadv⟩

/-- If reconciliation has settled for a member, it has for its twin too, provided that the stage waits
for no slot in which the two differ. -/
theorem Twins.rests (h : m.Twins D n) (hm : m.Rests commits now) (hc : m.member.Coherent)
    (ha : m.Agrees) (hD : ∀ i, m.member.stage.slot? = some i → ¬ D i) (commits' : Bool)
    (now' : Int64) : n.Rests commits' now' := by
  have hdone (i : SlotId) (hi : m.member.stage.slot? = some i) :
      n.session.slots.isDone i = m.session.slots.isDone i := h.session.slots.isDone (hD i hi)
  have hadv : n.advance commits' now' = .ok (n, false) ∨
      ∃ f, n.advance commits' now' = .error ⟨f, n⟩ := by
    obtain hs | ⟨f, hf⟩ := hm.cases hc ha
    · refine Or.inl (Settled.advance ?_ commits' now')
      obtain ⟨i, hi, hd⟩ | hidle := hs
      · exact Or.inl ⟨i, by rw [h.member, hi], (hdone i hi).trans hd⟩
      · exact Or.inr (by rwa [h.member])
    · have halike := h.advance hdone commits' now'
      rw [hf commits' now'] at halike
      generalize hn : n.advance commits' now' = r at halike
      cases halike with
      | error _ hmn =>
        have hcn : n.member.Coherent := by rwa [h.member]
        have han : n.Agrees := by
          obtain ⟨x, s⟩ := n
          obtain rfl : x = m.member := h.member
          exact ha.congr h.session.subscription rfl
        obtain ⟨f', he, -⟩ := advance_of_error hcn han hn
        exact Or.inr ⟨f', by rw [he]⟩
  rw [Rests, reconcile, advanceWithin]
  obtain hadv | ⟨f, hadv⟩ := hadv <;> rw [hadv] <;> rfl

end Membership

namespace Processor

variable {D : SlotId → Prop} {p : Processor} {x : Member} {i : SlotId} {a : Action}
  {commits : Bool} {now : Int64}

/-- If reconciliation has settled, completing a slot that no stage waits for does that and no more, but
that a fault may be reported. -/
theorem Sound.act_of_completes (hx : p.Sound x) (hm : Membership.Rests ⟨x, p.session⟩ commits now)
    (hp : p.session.slots.Encloses D) (hi : D i) (hclear : p.StageClear D) (ha : a.Completes i) :
    ∃ o fs, p.act a = (p.withSession (·.complete i o)).report fs := by
  obtain ⟨o, rfl⟩ | ⟨method, fault, rfl⟩ := ha
  · exact ⟨o, [], rfl⟩
  · obtain ⟨o, ho⟩ : ∃ o, p.withMembership (Membership.onCallbackDone ⟨x, p.session⟩ i fault) =
        p.withSession (·.complete i o) := by
      constructor
      rw [withMembership, withSession, hx.member]
      rfl
    let q := p.withSession (·.complete i o)
    have hq : q.member = some x := hx.member
    have htwins : Membership.Twins D ⟨x, p.session⟩ ⟨x, q.session⟩ :=
      ⟨rfl, ((Session.Twins.refl hp).complete_left hi o).symm⟩
    have hrests := htwins.rests hm hx.coherent hx.agrees (fun j hj => hclear x j hx.member hj)
      (q.has .commit) q.session.clock
    have hstep : q.withMembership ⟨x, q.session⟩ = q := by
      rw [withMembership, ← hq]
    refine ⟨o, (q.reconcile q.session.clock).2, ?_⟩
    have hact : p.act (.process (.callbackDone method i fault)) =
        (q.reconcile q.session.clock).1.report (q.reconcile q.session.clock).2 := by
      show p.callbackDone i fault = _
      rw [callbackDone, membership?_eq hx.member]
      simp only
      rw [ho]
    have hrec : (q.reconcile q.session.clock).1 = q := by
      rw [reconcile, onMember_eq hq, hrests, hstep]
    rw [hact, hrec]

end Processor

namespace Setup

theorem apart_processor (u : Setup) (D : SlotId → Prop) (i : SlotId) : u.processor.Apart D i where
  answers _ hf := absurd hf List.not_mem_nil
  leave l hl := by cases hl
  stage x j hx hj := by
    obtain rfl := Option.some.inj hx
    cases hj

/-- Completing a future that was handed out and that the stage does not wait for, when reconciliation
has settled, changes neither the member nor the subscription, and requests nothing of the caller, who
may hear of a fault at most. Whatever happens next leads to the same member and to the same
subscription as if it were not complete. The commit manager answers each call with a future of its own
(`AnswersDuly`); others may have hooked onto the future, but for themselves alone (`Private`). -/
theorem abandoned_inert (u : Setup) (as bs : List Action) {x : Member} {now : Int64} {i : SlotId}
    {D : SlotId → Prop} {a : Action} (hx : (u.chronicle as).present.member = some x)
    (hrests : Membership.Rests ⟨x, (u.chronicle as).present.session⟩
      ((u.chronicle as).present.has .commit) now)
    (ho : (u.chronicle as).HandsOut i) (hi : x.stage.slot? ≠ some i)
    (hD : (u.chronicle (as ++ bs)).Private D i)
    (hduly : (u.chronicle (as ++ bs)).present.session.AnswersDuly) (ha : a.Completes i) :
    ((u.chronicle (as ++ [a])).present.member = (u.chronicle as).present.member ∧
      (u.chronicle (as ++ [a])).present.subscription = (u.chronicle as).present.subscription ∧
      ∃ fs : List Fault, (u.chronicle (as ++ [a])).present.session.events =
        (u.chronicle as).present.session.events ++ fs.map .fault) ∧
    (u.chronicle (as ++ a :: bs)).present.member = (u.chronicle (as ++ bs)).present.member ∧
      (u.chronicle (as ++ a :: bs)).present.subscription =
        (u.chronicle (as ++ bs)).present.subscription := by
  have hrun : u.chronicle (as ++ bs) = (u.chronicle as).run bs := List.foldl_append
  rw [hrun] at hD hduly ⊢
  have hafter (bs : List Action) : (u.chronicle (as ++ a :: bs)).present =
      bs.foldl Processor.act ((u.chronicle as).present.act a) := by
    rw [u.present_chronicle, List.foldl_append, ← u.present_chronicle]
    rfl
  rw [hafter, hafter]
  have hlived := u.lived as
  have hsound : ∃ z, (u.chronicle as).present.Sound z := hlived.sound u.sound
  generalize u.chronicle as = k at *
  obtain ⟨z, hz⟩ := hsound
  obtain rfl : x = z := Option.some.inj (hx.symm.trans hz.member)
  have hsuffix := Chronicle.suffix_run k bs
  obtain ⟨hclear, hin, hcalm⟩ := hlived.calm (hlived.run bs) (u.fit_begin true) u.sound
    (u.apart_processor D i) rfl ho hD hduly hsuffix fun z hz => by
      rwa [← Option.some.inj (hx.symm.trans hz)]
  have hencl : k.present.session.slots.Encloses D :=
    hlived.encloses (fun j c _ hc => by cases hc) fun y hy => hin y (hsuffix.subset hy)
  obtain ⟨o, fs, hact⟩ := hz.act_of_completes hrests hencl hD.slot hclear ha
  have htwins : k.present.Twins D (k.present.act a) := by
    rw [hact]
    exact ⟨rfl, rfl, (((Session.Twins.refl hencl).complete_left hD.slot o).report_left fs).symm⟩
  obtain ⟨y, hy⟩ := hz.follow (k.present.causes a)
  rw [hz.follow_causes] at hy
  have hend := hcalm.run htwins hy (List.suffix_refl _)
  refine ⟨⟨htwins.member, htwins.subscription, fs, ?_⟩, hend.member, hend.subscription⟩
  show (k.present.act a).session.events = _
  rw [hact]
  exact (Session.grows_report _ fs).events

/-- The steps by which a member is given a partition, is fenced before its listener has run, and is
given the partition anew. -/
def regivenSteps : List Action :=
  firstSteps ++ hears .fenced ++ [listenerRun .partitionsLost 3] ++
    hears (.success "m" 1 (some (.ofList [{ topic := "t", number := 0 }])))

/-- The steps by which the listener has run, and the member is given another partition. -/
def exchangedSteps : List Action :=
  listenerRun .partitionsAssigned 4 ::
    hears (.success "m" 1 (some (.ofList [{ topic := "t", number := 1 }])))

/-- The caller reports late that it ran its listener for the first of two assignments. The member waits
for the second one all the same, and goes on to commit after that as if the caller had not. -/
theorem abandoned_inert_regiven :
    let late := listenerRun .partitionsAssigned 2
    let k := firstSetup.chronicle regivenSteps
    let k' := firstSetup.chronicle (regivenSteps ++ [late])
    (∃ x, k.present.member = some x ∧ x.stage.name = "Assigning" ∧ x.stage.slot? = some 4) ∧
      k'.present.member = k.present.member ∧ k'.present.subscription = k.present.subscription ∧
      (firstSetup.chronicle (regivenSteps ++ late :: exchangedSteps)).present.member =
        (firstSetup.chronicle (regivenSteps ++ exchangedSteps)).present.member := by
  intro late k k'
  have hstage : k.present.member.map (fun x => (x.stage.name, x.stage.slot?)) =
      some ("Assigning", some 4) := by decide +kernel
  have hpending : k.present.session.slots.isDone 4 = false := by decide +kernel
  have hhails : ∃ y ∈ k.past, y.Hails 2 := by decide +kernel
  have hhooks : ∀ y ∈ (firstSetup.chronicle (regivenSteps ++ exchangedSteps)).past,
      y.cause.hooks = false := by decide +kernel
  have hanswers : ((firstSetup.chronicle
      (regivenSteps ++ exchangedSteps)).present.session.futures.toList.map (·.2)).Nodup := by
    decide +kernel
  obtain ⟨x, hx, hstage⟩ := Option.map_eq_some_iff.1 hstage
  obtain ⟨hname, hslot⟩ := Prod.mk.inj hstage
  have hsettled : Membership.Settled ⟨x, k.present.session⟩ := Or.inl ⟨4, hslot, hpending⟩
  obtain ⟨⟨hmember, hsub, -⟩, hlater, -⟩ := abandoned_inert firstSetup regivenSteps exchangedSteps
    (a := late) (i := 2) hx (hsettled.rests _ 0) (Or.inl hhails) (by rw [hslot]; decide)
    (Chronicle.private_of_not_hooks hhooks 2) (Session.answersDuly_of_nodup hanswers)
    (Or.inr ⟨.partitionsAssigned, none, rfl⟩)
  exact ⟨⟨x, hx, hname, hslot⟩, hmember, hsub, hlater⟩

end Setup

end GroupConsumer
