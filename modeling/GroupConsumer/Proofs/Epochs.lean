import GroupConsumer.Proofs.Positions
import GroupConsumer.Proofs.Run.Requests

/-!
# The leader epoch that goes with a position

A position that is committed is committed together with an epoch of the leader. The caller names one
when it seeks, and a committed offset has one of its own; a reset finds none. Of these only a seek
changes the epoch that a partition has (`Moment.change`): a reset gives up the position and leaves the
epoch, and what lookups have left sets the position alone. So the epoch that goes with a position is
the one of the last seek, whatever has set the position since (`epoch_of_last_seek`), and it is the
right one if that was a seek. After a reset it belongs to an earlier position, and the epoch of a
committed offset is lost (`stale_epochs`).
-/

namespace GroupConsumer

/-- What puts a partition at an offset. -/
inductive Placing where
  /-- The caller moves there, and names the epoch of the leader or not. -/
  | sought (offset : Int64) (epoch : Option Int)
  /-- The offset has been committed earlier. -/
  | committed (offset : Int64) (epoch : Option Int)
  /-- A reset has found the offset. -/
  | found (offset : Int64)
deriving DecidableEq

namespace Placing

/-- Where the partition is put. -/
def offset : Placing → Int64
  | sought o _ | committed o _ | found o => o

/-- The epoch of the leader that comes with the offset. -/
def epoch : Placing → Option Int
  | sought _ e | committed _ e => e
  | found _ => none

end Placing

namespace Moment

/-- What puts a partition at another offset, if the partition is assigned and something does. -/
def placing? (y : Moment) (tp : TopicPartition) : Option Placing :=
  if tp ∈ y.before.subscription.assigned then
    match y.cause with
    | .received (.seek _ tp' offset epoch) => if tp' = tp then some (.sought offset epoch) else none
    | .deferred (.positions _, v) => ((Processor.positionsOf v).get? tp).map .found
    | .deferred (.committed _, v) =>
      if y.before.subscription.position? tp = none then
        ((Processor.offsetsOf v).get? tp).map fun c => .committed c.offset c.leaderEpoch
      else none
    | _ => none
  else none

/-- What becomes of the state of a partition that stays assigned. -/
def change (y : Moment) (tp : TopicPartition) (st : PartitionState) : PartitionState :=
  match y.cause with
  | .received (.seek _ tp' offset epoch) =>
    if tp' = tp then
      { st with position := some offset, leaderEpoch := epoch, pendingReset := none }
    else st
  | .received (.resetOffset _ _ strategy) =>
    if y.resets tp then { st with position := none, pendingReset := some strategy } else st
  | .deferred (.positions _, v) => ((Processor.positionsOf v).get? tp).elim st st.foundAt
  | .deferred (.committed _, v) =>
    if st.position = none then ((Processor.offsetsOf v).get? tp).elim st (st.foundAt ·.offset)
    else st
  | .deferred (.endOffsets isolation, v) =>
    ((Processor.lookupsOf v).get? tp).elim st (st.endingAt isolation)
  | _ => st

end Moment

/-- What has put the partition where it is. -/
def lastPlacing (tp : TopicPartition) : List Moment → Option Placing
  | [] => none
  | y :: past => (y.placing? tp).or (lastPlacing tp past)

/-- The epoch of the leader that the caller has named in its last seek, as long as the partition has
been assigned. -/
def lastEpoch (tp : TopicPartition) : List Moment → Option Int
  | [] => none
  | y :: past =>
    if tp ∈ y.before.subscription.assigned then
      match y.placing? tp with
      | some (.sought _ epoch) => epoch
      | _ => lastEpoch tp past
    else none

namespace Processor

variable {p : Processor} {c : Cause} {tp : TopicPartition} {st : PartitionState}

/-- A seek moves the partition that it names, if that is assigned. -/
theorem change_seek {t t' : Ticket} {tp' : TopicPartition} {offset : Int64} {epoch : Option Int}
    (h : (p.completeWith t (p.subscription.seek tp' offset epoch)).subscription.assignment.get? tp =
      some st) :
    ∃ st₀, p.subscription.assignment.get? tp = some st₀ ∧
      st = Moment.change ⟨p, .received (.seek t' tp' offset epoch)⟩ tp st₀ := by
  by_cases ha : tp' ∈ p.subscription.assigned
  · rw [Subscription.seek_of_mem ha] at h
    have hget := (Subscription.get?_adjust (s := p.subscription) (fun st =>
      { st with position := some offset, leaderEpoch := epoch, pendingReset := none }) tp').symm.trans h
    by_cases he : tp = tp'
    · rw [if_pos he] at hget
      obtain ⟨st₀, hst, rfl⟩ := Option.map_eq_some_iff.1 hget
      exact ⟨st₀, hst, (if_pos he.symm).symm⟩
    · rw [if_neg he] at hget
      exact ⟨st, hget, (if_neg (Ne.symm he)).symm⟩
  · have hs : ¬ p.subscription.isAssigned tp' = true := mt Subscription.mem_assigned.2 ha
    rw [Subscription.seek, Subscription.adjustAssigned, if_neg hs] at h
    refine ⟨st, h, (if_neg ?_).symm⟩
    rintro rfl
    exact ha (SortedMap.mem_keys.2 (Option.isSome_iff_exists.2 ⟨st, h⟩))

/-- A reset gives up the positions of the partitions that it names, if all of them are assigned. -/
theorem change_resetOffset {t t' : Ticket} {parts : PartitionSet} {strategy : ResetStrategy}
    (h : (p.completeWith t (p.subscription.requestReset parts strategy)).subscription.assignment.get?
      tp = some st) :
    ∃ st₀, p.subscription.assignment.get? tp = some st₀ ∧
      st = Moment.change ⟨p, .received (.resetOffset t' parts strategy)⟩ tp st₀ := by
  have hresets := Moment.resets_resetOffset p t' tp parts strategy
  have hchange (st₀ : PartitionState) :
      Moment.change ⟨p, .received (.resetOffset t' parts strategy)⟩ tp st₀ =
        if Moment.resets ⟨p, .received (.resetOffset t' parts strategy)⟩ tp then
          { st₀ with position := none, pendingReset := some strategy } else st₀ := rfl
  cases hk : p.subscription.requestReset parts strategy with
  | error f =>
    rw [hk] at h hresets
    refine ⟨st, h, ?_⟩
    rw [hchange, hresets, if_neg]
    rw [Bool.and_eq_true]
    exact fun hb => Bool.false_ne_true hb.2
  | ok s =>
    rw [hk] at h hresets
    have hget := (Subscription.get?_requestReset hk).symm.trans h
    obtain ⟨st₀, hst, rfl⟩ := Option.map_eq_some_iff.1 hget
    refine ⟨st₀, hst, ?_⟩
    rw [hchange, hresets]
    by_cases hm : tp ∈ parts
    · rw [if_pos hm, decide_eq_true hm]
      rfl
    · rw [if_neg hm, decide_eq_false hm]
      rfl

/-- A partition that is assigned has come just now, without any state, or it has been assigned before,
and its state has changed as the cause would have it. -/
theorem Steady.new_or_changed (hp : p.Steady)
    (h : (p.undergo c).subscription.assignment.get? tp = some st) :
    (p.subscription.assignment.get? tp = none ∧ st = {}) ∨
      ∃ st₀, p.subscription.assignment.get? tp = some st₀ ∧ st = Moment.change ⟨p, c⟩ tp st₀ := by
  have hrest (hk : ∀ e, c = .received e → e.kind ≠ .seek ∧ e.kind ≠ .resetOffset)
      (hc : ∀ u, c ≠ .deferred u) (hchange : ∀ st₀, Moment.change ⟨p, c⟩ tp st₀ = st₀) :
      (p.subscription.assignment.get? tp = none ∧ st = {}) ∨
        ∃ st₀, p.subscription.assignment.get? tp = some st₀ ∧
          st = Moment.change ⟨p, c⟩ tp st₀ := by
    have hst := hp.renews_undergo hk hc tp st h
    cases ho : p.subscription.assignment.get? tp with
    | none =>
      rw [ho] at hst
      exact Or.inl ⟨rfl, hst⟩
    | some st₀ =>
      rw [ho] at hst
      exact Or.inr ⟨st₀, rfl, hst.trans (hchange st₀).symm⟩
  have hmapped {f : PartitionState → PartitionState}
      (hget : (p.undergo c).subscription.assignment.get? tp =
        (p.subscription.assignment.get? tp).map f)
      (hchange : ∀ st₀, f st₀ = Moment.change ⟨p, c⟩ tp st₀) :
      ∃ st₀, p.subscription.assignment.get? tp = some st₀ ∧ st = Moment.change ⟨p, c⟩ tp st₀ := by
    obtain ⟨st₀, hst, rfl⟩ := Option.map_eq_some_iff.1 (hget.symm.trans h)
    exact ⟨st₀, hst, hchange st₀⟩
  cases c with
  | received e =>
    cases e with
    | seek t tp' offset epoch => exact Or.inr (change_seek h)
    | resetOffset t parts strategy => exact Or.inr (change_resetOffset h)
    | _ =>
      refine hrest (fun e he => ?_) (fun u hu => by cases hu) fun _ => rfl
      cases he
      exact ⟨by simp [AppEvent.kind], by simp [AppEvent.kind]⟩
  | deferred update =>
    obtain ⟨d, v⟩ := update
    refine Or.inr ?_
    cases d with
    | positions t => exact hmapped (Subscription.get?_takePositions _ (positionsOf v) tp) fun _ => rfl
    | committed t =>
      have hsub := (handles_resetPositions
        (p.withSubscription (takeCommitted · (offsetsOf v))) t).subscription
      refine hmapped ?_ fun _ => rfl
      exact (congrArg (·.assignment.get? tp) hsub).trans
        (Subscription.get?_takeCommitted _ (offsetsOf v) tp)
    | endOffsets isolation =>
      exact hmapped (Subscription.get?_takeEnds isolation _ (lookupsOf v) tp) fun _ => rfl
  | _ => exact hrest (fun e he => by cases he) (fun u hu => by cases hu) fun _ => rfl

end Processor

/-! ### Runs -/

/-- The epoch of a partition is the one of the last seek, and its position is where it was put last. -/
structure Placed (tp : TopicPartition) (past : List Moment) (st : PartitionState) : Prop where
  epoch : st.leaderEpoch = lastEpoch tp past
  position : ∀ o, st.position = some o → ∃ w, lastPlacing tp past = some w ∧ w.offset = o ∧
    ∀ o e, w = .sought o e → lastEpoch tp past = e

namespace Placed

variable {y : Moment} {past : List Moment} {tp : TopicPartition} {st : PartitionState}

/-- A partition that comes has no state. -/
theorem new (h : y.before.subscription.assignment.get? tp = none) : Placed tp (y :: past) {} := by
  have ha : tp ∉ y.before.subscription.assigned := by
    intro ha
    have := SortedMap.mem_keys.1 ha
    rw [h] at this
    cases this
  exact ⟨(if_neg ha).symm, fun o ho => by cases ho⟩

/-- What does not move the partition, and keeps the epoch and the position that it has. -/
theorem of_not_placing (h : Placed tp past st) (ha : tp ∈ y.before.subscription.assigned)
    (hn : y.placing? tp = none) {st' : PartitionState} (he : st'.leaderEpoch = st.leaderEpoch)
    (hpos : ∀ o, st'.position = some o → st.position = some o) : Placed tp (y :: past) st' := by
  have hepoch : lastEpoch tp (y :: past) = lastEpoch tp past := by
    rw [lastEpoch, if_pos ha, hn]
  have hlast : lastPlacing tp (y :: past) = lastPlacing tp past := by
    rw [lastPlacing, hn]
    rfl
  refine ⟨he.trans (h.epoch.trans hepoch.symm), fun o ho => ?_⟩
  rw [hlast, hepoch]
  exact h.position o (hpos o ho)

/-- A seek sets both the position and the epoch. -/
theorem of_sought (ha : tp ∈ y.before.subscription.assigned) {o : Int64} {e : Option Int}
    (hw : y.placing? tp = some (.sought o e)) (he : st.leaderEpoch = e)
    (hpos : st.position = some o) : Placed tp (y :: past) st := by
  have hepoch : lastEpoch tp (y :: past) = e := by
    rw [lastEpoch, if_pos ha, hw]
  have hlast : lastPlacing tp (y :: past) = some (.sought o e) := by
    rw [lastPlacing, hw]
    rfl
  refine ⟨he.trans hepoch.symm, fun o' ho => ⟨_, hlast, ?_, fun o'' e' hse => ?_⟩⟩
  · exact Option.some.inj (hpos.symm.trans ho)
  · obtain ⟨-, rfl⟩ := Placing.sought.inj hse
    exact hepoch

/-- What moves the partition without a word of the caller keeps the epoch that it has. -/
theorem of_placing (h : Placed tp past st) (ha : tp ∈ y.before.subscription.assigned) {w : Placing}
    (hw : y.placing? tp = some w) (hn : ∀ o e, w ≠ .sought o e) {st' : PartitionState}
    (he : st'.leaderEpoch = st.leaderEpoch) (hpos : st'.position = some w.offset) :
    Placed tp (y :: past) st' := by
  have hepoch : lastEpoch tp (y :: past) = lastEpoch tp past := by
    rw [lastEpoch, if_pos ha, hw]
    cases w with
    | sought o e => exact absurd rfl (hn o e)
    | committed | found => rfl
  refine ⟨he.trans (h.epoch.trans hepoch.symm), fun o ho => ⟨w, ?_, ?_, fun o e hse => ?_⟩⟩
  · rw [lastPlacing, hw]
    rfl
  · exact Option.some.inj (hpos.symm.trans ho)
  · exact absurd hse (hn o e)

/-- Whatever happens to a partition that stays assigned. -/
theorem change (h : Placed tp past st) (hst : y.before.subscription.assignment.get? tp = some st) :
    Placed tp (y :: past) (y.change tp st) := by
  obtain ⟨p, c⟩ := y
  have ha : tp ∈ p.subscription.assigned :=
    SortedMap.mem_keys.2 (Option.isSome_iff_exists.2 ⟨st, hst⟩)
  have hpos {w : Option Placing} (hw : (if tp ∈ p.subscription.assigned then w else none) =
      Moment.placing? ⟨p, c⟩ tp) : Moment.placing? ⟨p, c⟩ tp = w := hw.symm.trans (if_pos ha)
  have hstill (hn : Moment.placing? ⟨p, c⟩ tp = none) (hs : Moment.change ⟨p, c⟩ tp st = st) :
      Placed tp (⟨p, c⟩ :: past) (Moment.change ⟨p, c⟩ tp st) :=
    h.of_not_placing ha hn (congrArg (·.leaderEpoch) hs) fun o ho => by rwa [hs] at ho
  cases c with
  | received e =>
    cases e with
    | seek t tp' offset epoch =>
      have hw := hpos (w := if tp' = tp then some (.sought offset epoch) else none) rfl
      by_cases he : tp' = tp
      · rw [if_pos he] at hw
        have hs : Moment.change ⟨p, .received (.seek t tp' offset epoch)⟩ tp st =
            { st with position := some offset, leaderEpoch := epoch, pendingReset := none } :=
          if_pos he
        rw [hs]
        exact of_sought ha hw rfl rfl
      · exact hstill (hw.trans (if_neg he)) (if_neg he)
    | resetOffset t parts strategy =>
      cases hr : Moment.resets ⟨p, .received (.resetOffset t parts strategy)⟩ tp with
      | false => exact hstill (hpos rfl) (if_neg (Bool.eq_false_iff.1 hr))
      | true =>
        have hs : Moment.change ⟨p, .received (.resetOffset t parts strategy)⟩ tp st =
            { st with position := none, pendingReset := some strategy } := if_pos hr
        rw [hs]
        exact h.of_not_placing ha (hpos rfl) rfl fun o ho => by cases ho
    | _ => exact hstill (hpos rfl) rfl
  | deferred update =>
    obtain ⟨d, v⟩ := update
    cases d with
    | positions t =>
      have hs : Moment.change ⟨p, .deferred (.positions t, v)⟩ tp st =
          ((Processor.positionsOf v).get? tp).elim st st.foundAt := rfl
      have hw := hpos (w := ((Processor.positionsOf v).get? tp).map .found) rfl
      cases hg : (Processor.positionsOf v).get? tp with
      | none =>
        rw [hg] at hw hs
        exact hstill hw hs
      | some o =>
        rw [hg] at hw hs
        rw [hs]
        exact h.of_placing ha hw (fun _ _ hse => by cases hse) rfl rfl
    | committed t =>
      have hs : Moment.change ⟨p, .deferred (.committed t, v)⟩ tp st =
          if st.position = none then
            ((Processor.offsetsOf v).get? tp).elim st (st.foundAt ·.offset) else st := rfl
      have hw := hpos (w := if p.subscription.position? tp = none then
        ((Processor.offsetsOf v).get? tp).map fun c => .committed c.offset c.leaderEpoch else none) rfl
      have hposition : p.subscription.position? tp = st.position := by
        rw [Subscription.position?, hst]
        rfl
      rw [hposition] at hw
      by_cases hn : st.position = none
      · rw [if_pos hn] at hw hs
        cases hg : (Processor.offsetsOf v).get? tp with
        | none =>
          rw [hg] at hw hs
          exact hstill hw hs
        | some committed =>
          rw [hg] at hw hs
          rw [hs]
          exact h.of_placing ha hw (fun _ _ hse => by cases hse) rfl rfl
      · rw [if_neg hn] at hw hs
        exact hstill hw hs
    | endOffsets isolation =>
      have hs : Moment.change ⟨p, .deferred (.endOffsets isolation, v)⟩ tp st =
          ((Processor.lookupsOf v).get? tp).elim st (st.endingAt isolation) := rfl
      rw [hs]
      cases (Processor.lookupsOf v).get? tp with
      | none => exact h.of_not_placing ha (hpos rfl) rfl fun _ ho => ho
      | some found =>
        obtain ⟨hposition, hepoch, -⟩ := st.endingAt_eq isolation found
        exact h.of_not_placing ha (hpos rfl) hepoch fun o ho => hposition.symm.trans ho
  | _ => exact hstill (hpos rfl) rfl

end Placed

theorem Chronicle.Lived.placed {p : Processor} {k : Chronicle} (h : Lived p k) (hp : p.Steady)
    {tp : TopicPartition} (hn : p.subscription.assignment.get? tp = none) {st : PartitionState}
    (hst : k.present.subscription.assignment.get? tp = some st) : Placed tp k.past st := by
  induction h generalizing st with
  | start => cases hn.symm.trans hst
  | undergo h c ih =>
    obtain ⟨ho, rfl⟩ | ⟨st₀, ho, rfl⟩ := (h.steady hp).new_or_changed hst
    · exact .new ho
    · exact (ih ho).change ho

namespace Setup

/-- A position that is committed is where the partition was put last. The epoch that is committed with
it is the one of the last seek, which is the epoch of the position if a seek has put it there. -/
theorem epoch_of_last_seek (u : Setup) (inGroup : Bool) (as : List Action) {k : Chronicle}
    (hk : k ∈ (u.record inGroup as).points) {tp : TopicPartition} {c : CommittedOffset}
    (hc : k.present.subscription.consumed.get? tp = some c) :
    ∃ w, lastPlacing tp k.past = some w ∧ c = ⟨w.offset, lastEpoch tp k.past, ""⟩ ∧
      ∀ o e, w = .sought o e → lastEpoch tp k.past = w.epoch := by
  rw [Subscription.consumed, SortedMap.get?_filterMapValues] at hc
  obtain ⟨st, hst, hc⟩ := Option.bind_eq_some_iff.1 hc
  obtain ⟨o, ho, rfl⟩ := Option.map_eq_some_iff.1 hc
  have hplaced := ((u.lived_record inGroup as).of_mem_points hk).placed (u.steady inGroup) rfl hst
  obtain ⟨w, hw, rfl, hsought⟩ := hplaced.position o ho
  refine ⟨w, hw, by rw [hplaced.epoch], fun o e he => ?_⟩
  rw [hsought o e he, he]
  rfl

/-- A consumer that commits and looks offsets up. -/
def committing : Setup := { script := { managers := [.commit, .offsets] } }

/-- One more partition of the topic. -/
def otherPartition : TopicPartition := { topic := "t", number := 1 }

/-- The consumer has two partitions, and the caller seeks in one of them. -/
def epochSteps : List Action :=
  [.outside .fresh,
    .process (.assign (ticketAt 0) 0 (.ofList [soughtPartition, otherPartition])),
    .outside .fresh, .process (.seek (ticketAt 1) soughtPartition 5 (some 3))]

/-- The caller resets the partition in which it has sought. The other one goes on from its committed
offset, and this one from where the reset has found it. -/
def resetSteps : List Action :=
  [.outside .fresh, .process (.resetOffset (ticketAt 2) (.ofList [soughtPartition]) .earliest),
    .outside .fresh, .process (.checkPositions (ticketAt 3)),
    .outside (.settle 4 (.ok (.offsets (.ofList [(otherPartition, ⟨7, some 4, ""⟩)])))), .progress 0,
    .outside (.settle 5 (.ok (.positions (.ofList [(soughtPartition, 9)])))), .progress 0]

/-- The epoch of a seek goes with the position of the seek. -/
theorem epoch_of_last_seek_sought :
    (committing.record false epochSteps).present.subscription.consumed.get? soughtPartition =
      some ⟨5, some 3, ""⟩ := by
  have hc : ((committing.record false epochSteps).present.subscription.consumed.get?
      soughtPartition).isSome := by decide +kernel
  obtain ⟨c, hc⟩ := Option.isSome_iff_exists.1 hc
  obtain ⟨w, hw, rfl, -⟩ := epoch_of_last_seek committing false epochSteps (Chronicle.mem_points_self _) hc
  have hlast : lastPlacing soughtPartition (committing.record false epochSteps).past =
      some (.sought 5 (some 3)) := by decide +kernel
  have hepoch : lastEpoch soughtPartition (committing.record false epochSteps).past = some 3 := by
    decide +kernel
  obtain rfl := Option.some.inj (hw.symm.trans hlast)
  rw [hc, hepoch]
  rfl

/-- What a reset has found has no epoch, and is committed with the one of an earlier seek. A committed
offset that has an epoch is committed again without it. -/
theorem stale_epochs :
    let k := committing.record false (epochSteps ++ resetSteps)
    (lastPlacing soughtPartition k.past).map (·.epoch) = some none ∧
      k.present.subscription.consumed.get? soughtPartition = some ⟨9, some 3, ""⟩ ∧
      (lastPlacing otherPartition k.past).map (·.epoch) = some (some 4) ∧
      k.present.subscription.consumed.get? otherPartition = some ⟨7, none, ""⟩ := by
  decide +kernel

end Setup

end GroupConsumer
