import GroupConsumer.Proofs.Run.Twins
import Mathlib.Data.List.Nodup

/-!
# Slots that are out of the processor's hands

A future that was handed out is the answer to one request. The moment that made its slot made it for
that request and for nothing else (`Moment.Bears`), whether the caller is to answer in it or a commit.
So it is neither the slot of a leave nor the answer to any other call, and a stage that begins later
does not wait for it. With `D` made up of such a slot and of slots that others made for themselves, this
is what an `Apart` processor has, and what every further moment keeps.
-/

namespace GroupConsumer

/-- Whether the call is one of the commit manager. -/
def Method.isCommit : Method → Bool
  | commitAsync | commitSync | fetchCommitted | commitBeforeRevocation => true
  | lookUpOffsets | resolveResets | createFetches => false

/-- The commit manager has answered each call with a slot that was no answer before, and no slot is the
answer both to a call that yields something and to one that does not, as the types of the answers tell
the two apart. -/
structure Session.AnswersDuly (s : Session) : Prop where
  afresh : ∀ (m n : Nat) (f g : Method × SlotId), s.futures[m]? = some f → s.futures[n]? = some g →
    m < n → g.1.isCommit = true → f.2 ≠ g.2
  typed : ∀ f ∈ s.futures.toList, ∀ g ∈ s.futures.toList, f.2 = g.2 → f.1.isBare = g.1.isBare

theorem Session.AnswersDuly.of_follows {s t : Session} (h : t.AnswersDuly) (hst : s.Follows t) :
    s.AnswersDuly where
  afresh m n f g hf hg := h.afresh m n f g (hst.futures m f hf) (hst.futures n g hg)
  typed f hf g hg := h.typed f (hst.mem_futures hf) g (hst.mem_futures hg)

/-- If no two answers come in the same slot, all is well. -/
theorem Session.answersDuly_of_nodup {s : Session} (h : (s.futures.toList.map (·.2)).Nodup) :
    s.AnswersDuly where
  afresh m n f g hf hg hlt _ he := by
    rw [← Array.getElem?_toList] at hf hg
    obtain ⟨hm, rfl⟩ := List.getElem?_eq_some_iff.1 hf
    obtain ⟨hn, rfl⟩ := List.getElem?_eq_some_iff.1 hg
    have hm' : m < (s.futures.toList.map (·.2)).length := by rwa [List.length_map]
    have hn' : n < (s.futures.toList.map (·.2)).length := by rwa [List.length_map]
    have hsame : (s.futures.toList.map (·.2))[m] = (s.futures.toList.map (·.2))[n] := by
      rwa [List.getElem_map, List.getElem_map]
    exact Nat.ne_of_lt hlt (h.getElem_inj_iff.1 hsame)
  typed f hf g hg he := by rw [List.inj_on_of_nodup_map h hf hg he]

/-- The slot is made in this moment, for a callback or for the commit before a revocation. -/
structure Moment.Bears (y : Moment) (i : SlotId) : Prop where
  made : y.Makes i
  answers : ∀ f ∈ y.after.session.futures.toList, f.2 = i → f.1.isBare = true
  leave : y.after.leaveSlot? ≠ some i
  links : ∀ l, y.Links l → l ≠ i

/-- No slot in `D` is made in this moment, but for `i`, unless this happens outside. -/
def Moment.Reserves (D : SlotId → Prop) (i : SlotId) (y : Moment) : Prop :=
  ∀ j, D j → y.Makes j → (j = i ∧ y.Bears i) ∨ ∃ o, y.cause = .outside o

namespace Processor

variable {D : SlotId → Prop} {p : Processor} {x : Member} {c : Cause} {i : SlotId}

theorem Fit.bears_of_hails (hp : p.Fit) (hx : p.Sound x) (h : Moment.Hails ⟨p, c⟩ i) :
    Moment.Bears ⟨p, c⟩ i := by
  have hh := hp.hailed hx h
  refine ⟨hh.made, fun f hf hi => ?_, hh.leave, hh.links⟩
  have hf : f ∈ p.session.futures.toList := hh.futures ▸ hf
  exact absurd (hp.filed f hf) (Nat.not_lt_of_le (hi ▸ hh.made.1))

/-- The commit manager answers with no slot that was an answer before. -/
theorem Sound.ne_of_answersDuly (hx : p.Sound x) (hduly : (p.undergo c).session.AnswersDuly)
    {n : Nat} {f g : Method × SlotId} (hn : (p.undergo c).session.futures[n]? = some f)
    (hf : f.1.isCommit = true) (hle : p.session.futures.size ≤ n)
    (hg : g ∈ p.session.futures.toList) : g.2 ≠ f.2 := by
  obtain ⟨m, hm⟩ := Session.mem_futures.1 hg
  have hlt := (Array.getElem?_eq_some_iff.1 hm).1
  exact hduly.afresh m n g f ((hx.turn c).follows.1.futures m g hm) hn
    (Nat.lt_of_lt_of_le hlt hle) hf

/-- The slot of a commit is made for the commit. -/
theorem Fit.bears_of_answer (hp : p.Fit) (hx : p.Sound x) {n : Nat}
    (hn : p.session.futures[n]? = none)
    (h : (p.undergo c).session.futures[n]? = some (.commitBeforeRevocation, i))
    (hduly : (p.undergo c).session.AnswersDuly) : Moment.Bears ⟨p, c⟩ i := by
  have hchanged (hs : (p.undergo c).session.futures = p.session.futures) : False := by
    rw [hs, hn] at h
    cases h
  have hmade : Moment.Makes ⟨p, c⟩ i := by
    obtain h' | ⟨hle, ⟨g, hg, hgi⟩ | hmade⟩ := hp.answers hx c h
    · cases hn.symm.trans h'
    · exact absurd hgi (hx.ne_of_answersDuly hduly h rfl hle hg)
    · exact hmade
  refine ⟨hmade, fun f hf hfi => ?_, fun hl => ?_, ?_⟩
  · exact hduly.typed f hf _ (Session.mem_futures.2 ⟨n, h⟩) hfi
  · obtain hl | ⟨-, hs⟩ := hx.leaveSlot?_cases c hl
    · exact Nat.not_lt_of_le hmade.1 (hp.leave i hl)
    · exact hchanged hs
  · rintro l ⟨e, -, -, he, hleave, -⟩
    obtain rfl : c = .received e := he
    exact (hchanged (hx.futures_of_leave hleave)).elim

/-! ### Processors -/

/-- No slot in `D` is in use, but for `i`, which may be a commit and may be what the stage waits for. -/
structure Apart (D : SlotId → Prop) (i : SlotId) (p : Processor) : Prop where
  answers : ∀ f ∈ p.session.futures.toList, D f.2 → f.1.isBare = true ∧ f.2 = i
  leave : ∀ l, p.leaveSlot? = some l → ¬ D l
  stage : ∀ x j, p.member = some x → x.stage.slot? = some j → D j → j = i

section

variable (hp : p.Fit) (hx : p.Sound x) (h : p.Apart D i) (hres : Moment.Reserves D i ⟨p, c⟩)
  (hduly : (p.undergo c).session.AnswersDuly)

include hp hx h hres hduly

theorem Apart.answers_undergo : ∀ f ∈ (p.undergo c).session.futures.toList, D f.2 →
    f.1.isBare = true ∧ f.2 = i := by
  intro f hf hD
  obtain ⟨n, hn⟩ := Session.mem_futures.1 hf
  obtain hold | ⟨hle, ⟨g, hg, hgf⟩ | hmade⟩ := hp.answers hx c hn
  · exact h.answers f (Session.mem_futures.2 ⟨n, hold⟩) hD
  · -- The slot is `i`, with which somebody answers again who yields nothing either.
    obtain ⟨hbare, hgi⟩ := h.answers g hg (by rwa [hgf])
    have hg' := (hx.turn c).follows.1.mem_futures hg
    exact ⟨(hduly.typed g hg' f hf hgf).symm.trans hbare, hgf.symm.trans hgi⟩
  · obtain ⟨hi, hb⟩ | ⟨o, ho⟩ := hres f.2 hD hmade
    · exact ⟨hb.answers f hf hi, hi⟩
    · obtain rfl : c = .outside o := ho
      rw [(undergo_outside p o).1] at hn
      exact absurd (Array.getElem?_eq_some_iff.1 hn).1 (Nat.not_lt_of_le hle)

theorem Apart.undergo : (p.undergo c).Apart D i ∧ ∀ l, Moment.Links ⟨p, c⟩ l → ¬ D l := by
  have hanswers := h.answers_undergo hp hx hres hduly
  refine ⟨⟨hanswers, fun l hl hD => ?_, fun z j hz hj hD => ?_⟩, fun l hl hD => ?_⟩
  · obtain hold | ⟨hle, -⟩ := hx.leaveSlot?_cases c hl
    · exact h.leave l hold hD
    · obtain ⟨rfl, hb⟩ | ⟨o, ho⟩ := hres l hD ⟨hle, (hp.undergo c).leave l hl⟩
      · exact hb.leave hl
      · obtain rfl : c = .outside o := ho
        rw [(undergo_outside p o).2.1] at hl
        exact h.leave l hl hD
  · obtain hold | hhails | hcommit := hx.stage_cases c hz hj
    · exact h.stage x j hx.member hold hD
    · obtain ⟨hji, -⟩ | ⟨o, ho⟩ := hres j hD (hp.hailed hx hhails).made
      · exact hji
      · obtain rfl : c = .outside o := ho
        exact absurd hhails ((undergo_outside p o).2.2 j)
    · exact (hanswers _ (Session.mem_futures.2 ⟨_, hcommit⟩) hD).2
  · obtain hold | hmade := hx.links_cases hl
    · exact h.leave l hold hD
    · obtain ⟨rfl, hb⟩ | ⟨o, ho⟩ := hres l hD hmade
      · exact hb.links l hl rfl
      · obtain ⟨e, -, -, he, -⟩ := hl
        cases he.symm.trans ho

/-- A stage that begins once `i` was handed out does not wait for `i`. -/
theorem Apart.stageClear_undergo (hi : i < p.session.slots.cells.size) (hclear : p.StageClear D) :
    (p.undergo c).StageClear D := by
  intro z j hz hj hD
  obtain hold | hhails | hcommit := hx.stage_cases c hz hj
  · exact hclear x j hx.member hold hD
  · have hmade := (hp.hailed hx hhails).made
    obtain ⟨rfl, -⟩ | ⟨o, ho⟩ := hres j hD hmade
    · exact Nat.not_lt_of_le hmade.1 hi
    · obtain rfl : c = .outside o := ho
      exact (undergo_outside p o).2.2 j hhails
  · obtain rfl := (h.answers_undergo hp hx hres hduly _ (Session.mem_futures.2 ⟨_, hcommit⟩) hD).2
    obtain hold | ⟨-, ⟨g, hg, hgj⟩ | hmade⟩ := hp.answers hx c hcommit
    · exact Nat.lt_irrefl _ (Array.getElem?_eq_some_iff.1 hold).1
    · exact hx.ne_of_answersDuly hduly hcommit rfl (Nat.le_refl _) hg hgj
    · exact Nat.not_lt_of_le hmade.1 hi

end

end Processor

/-- Whether the cause hooks something onto a slot outside, or asks for fetches, whose ticket is linked
to the answer. -/
def Cause.hooks : Cause → Bool
  | .outside (.listen ..) | .received (.createFetches _) => true
  | _ => false

/-! ### Chronicles -/

namespace Chronicle

variable {D : SlotId → Prop} {p : Processor} {k K : Chronicle} {x : Member} {i : SlotId}

/-- The slot is that of a future that was handed out: the caller was to answer in it, or the commit
manager has answered with it when it was asked to commit before a revocation. -/
def HandsOut (k : Chronicle) (i : SlotId) : Prop :=
  (∃ y ∈ k.past, y.Hails i) ∨
    (.commitBeforeRevocation, i) ∈ k.present.session.futures.toList

/-- The slots in `D` are `i` and slots that were made outside for whatever waits on `i`. Nothing that is
hooked onto a slot in `D` outside leads out of `D`, nor does a ticket for fetches that are answered with
a slot in `D`. -/
structure Private (k : Chronicle) (D : SlotId → Prop) (i : SlotId) : Prop where
  slot : D i
  made : ∀ y ∈ k.past, ∀ j, D j → y.Makes j → j = i ∨ ∃ o, y.cause = .outside o
  fetched : ∀ y ∈ k.past, ¬ y.Leaks D
  hooked : ∀ y ∈ k.past, ∀ j l, y.cause = .outside (.listen j l) → D j → l.StaysIn D

/-- If nothing is hooked onto anything, `i` is all there is to `D`. -/
theorem private_of_not_hooks (h : ∀ y ∈ k.past, y.cause.hooks = false) (i : SlotId) :
    k.Private (· = i) i where
  slot := rfl
  made _ _ _ hj _ := Or.inl hj
  fetched y hy := by
    rintro ⟨t, -, hc, -⟩
    cases (h y hy).symm.trans (congrArg Cause.hooks hc)
  hooked y hy j l hc _ := by cases (h y hy).symm.trans (congrArg Cause.hooks hc)

/-- What was handed out was made to be handed out. -/
theorem Lived.bears (h : Lived p k) (hp : p.Fit) (hx : p.Sound x) (hf : p.session.futures = #[])
    (ho : k.HandsOut i) (hduly : k.present.session.AnswersDuly) : ∃ y ∈ k.past, y.Bears i := by
  obtain ⟨y, hy, hi⟩ | hcommit := ho
  · obtain ⟨later, earlier, hk⟩ := List.append_of_mem hy
    have hat := h.at_moment hk
    obtain ⟨z, hz⟩ := hat.sound hx
    exact ⟨y, hy, (hat.fit hp).bears_of_hails (c := y.cause) hz hi⟩
  · obtain ⟨n, hn⟩ := Session.mem_futures.1 hcommit
    clear hcommit
    induction h with
    | start =>
      rw [hf] at hn
      cases hn
    | @undergo k h c ih =>
      obtain ⟨z, hz⟩ := h.sound hx
      have hfollows := (hz.turn c).follows.1
      cases hold : k.present.session.futures[n]? with
      | none => exact ⟨_, List.mem_cons_self, (h.fit hp).bears_of_answer hz hold hn hduly⟩
      | some f =>
        obtain rfl := Option.some.inj ((hfollows.futures n f hold).symm.trans hn)
        obtain ⟨y, hy, hb⟩ := ih (hduly.of_follows hfollows) hold
        exact ⟨y, List.mem_cons_of_mem _ hy, hb⟩

/-- As `i` is made once, it is made for nothing else. -/
theorem Lived.reserves (h : Lived p k) (hp : p.Fit) (hD : k.Private D i)
    (hb : ∃ y ∈ k.past, y.Bears i) : ∀ y ∈ k.past, y.Reserves D i := by
  intro y hy j hj hmade
  obtain rfl | ho := hD.made y hy j hj hmade
  · obtain ⟨z, hz, hbears⟩ := hb
    obtain rfl := h.eq_of_makes hp hy hz hmade hbears.made
    exact Or.inl ⟨rfl, hbears⟩
  · exact Or.inr ho

/-- Throughout a run the slots in `D` are apart, and no request to leave is linked to one. -/
theorem Lived.apart (h : Lived p k) (hp : p.Fit) (hx : p.Sound x) (h₀ : p.Apart D i)
    (hres : ∀ y ∈ k.past, y.Reserves D i) (hduly : k.present.session.AnswersDuly) :
    k.present.Apart D i ∧ ∀ y ∈ k.past, y.after.Apart D i ∧ ∀ l, y.Links l → ¬ D l := by
  induction h with
  | start => exact ⟨h₀, fun y hy => absurd hy List.not_mem_nil⟩
  | @undergo k h c ih =>
    obtain ⟨z, hz⟩ := h.sound hx
    obtain ⟨hk, hpast⟩ := ih (fun y hy => hres y (List.mem_cons_of_mem _ hy))
      (hduly.of_follows (hz.turn c).follows.1)
    obtain ⟨hnext, hlinks⟩ := hk.undergo (h.fit hp) hz (hres _ List.mem_cons_self) hduly
    refine ⟨hnext, fun y hy => ?_⟩
    obtain rfl | hy := List.mem_cons.1 hy
    · exact ⟨hnext, hlinks⟩
    · exact hpast y hy

/-- Two chronicles with the same past are the same. -/
theorem Lived.eq_of_past (h : Lived p k) (h' : Lived p K) (hs : k.past = K.past) : k = K := by
  cases h with
  | start =>
    cases h' with
    | start => rfl
    | undergo _ _ => cases hs
  | undergo h c =>
    cases h' with
    | start => cases hs
    | undergo h' c' =>
      obtain ⟨hy, hpast⟩ := List.cons.inj hs
      obtain ⟨hpresent, hc⟩ := Moment.mk.inj hy
      rw [Chronicle.undergo, Chronicle.undergo, hpresent, hpast, hc]

/-- What a chronicle goes on to follows it. -/
theorem Lived.follows (h : Lived p k) (hK : Lived p K) (hx : p.Sound x) (hs : k.past <:+ K.past) :
    k.present.session.Follows K.present.session := by
  induction hK with
  | start =>
    obtain rfl := h.eq_of_past .start (List.suffix_nil.1 hs)
    exact .refl _
  | @undergo K hK c ih =>
    obtain hs | hs := List.suffix_cons_iff.1 hs
    · rw [← h.eq_of_past (hK.undergo c) hs]
      exact .refl _
    · obtain ⟨z, hz⟩ := hK.sound hx
      exact (ih hs).trans (hz.turn c).follows.1

/-- From `k` on no stage waits for a slot in `D`, if none does at `k`. -/
theorem Lived.stageClear (h : Lived p k) (hK : Lived p K) (hp : p.Fit) (hx : p.Sound x)
    (h₀ : p.Apart D i) (hres : ∀ y ∈ K.past, y.Reserves D i)
    (hduly : K.present.session.AnswersDuly) (hi : i < k.present.session.slots.cells.size)
    (hclear : k.present.StageClear D) (hs : k.past <:+ K.past) : K.present.StageClear D := by
  induction hK with
  | start =>
    obtain rfl := h.eq_of_past .start (List.suffix_nil.1 hs)
    exact hclear
  | @undergo K hK c ih =>
    obtain hs | hs := List.suffix_cons_iff.1 hs
    · rw [← h.eq_of_past (hK.undergo c) hs]
      exact hclear
    · obtain ⟨z, hz⟩ := hK.sound hx
      have hearlier : ∀ y ∈ K.past, y.Reserves D i := fun y hy => hres y (List.mem_cons_of_mem _ hy)
      have hbefore := hduly.of_follows (hz.turn c).follows.1
      exact (hK.apart hp hx h₀ hearlier hbefore).1.stageClear_undergo (hK.fit hp) hz
        (hres _ List.mem_cons_self) hduly (Nat.lt_of_lt_of_le hi (h.follows hK hx hs).size)
        (ih hearlier hbefore hs)

/-- A future that was handed out and that the stage does not wait for is out of the processor's hands. -/
theorem Lived.calm (h : Lived p k) (hK : Lived p K) (hp : p.Fit) (hx : p.Sound x)
    (h₀ : p.Apart D i) (hf : p.session.futures = #[]) (ho : k.HandsOut i) (hD : K.Private D i)
    (hduly : K.present.session.AnswersDuly) (hs : k.past <:+ K.past)
    (hi : ∀ z, k.present.member = some z → z.stage.slot? ≠ some i) :
    k.present.StageClear D ∧ (∀ y ∈ K.past, y.Contained D) ∧ Calm D k K := by
  have hduly' := hduly.of_follows (h.follows hK hx hs)
  obtain ⟨b, hb, hbears⟩ := h.bears hp hx hf ho hduly'
  have hsize := Nat.lt_of_lt_of_le hbears.made.2 (h.size_le hp hb)
  have hres := hK.reserves hp hD ⟨b, hs.subset hb, hbears⟩
  obtain ⟨-, hpast⟩ := hK.apart hp hx h₀ hres hduly
  have hclear : k.present.StageClear D := by
    intro z j hz hj hDj
    have hapart := (h.apart hp hx h₀ (fun y hy => hres y (hs.subset hy)) hduly').1
    obtain rfl := hapart.stage z j hz hj hDj
    exact hi z hz hj
  have hin : ∀ y ∈ K.past, y.Contained D := fun y hy =>
    ⟨fun f hf hDf => ((hpast y hy).1.answers f hf hDf).1, hD.fetched y hy, hD.hooked y hy,
      (hpast y hy).2⟩
  refine ⟨hclear, hin, fun later y earlier hpasts hearlier => ?_⟩
  have hat := hK.at_moment hpasts
  have hsuffix : earlier <:+ K.past := ⟨later ++ [y], by rw [hpasts]; simp⟩
  have hy : y ∈ K.past := by rw [hpasts]; simp
  exact ⟨hin y hy, h.stageClear hat hp hx h₀ (fun z hz => hres z (hsuffix.subset hz))
    (hduly.of_follows (hat.follows hK hx hsuffix)) hsize hclear hearlier⟩

end Chronicle

end GroupConsumer
