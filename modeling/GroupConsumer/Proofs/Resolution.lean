import GroupConsumer.Proofs.Resets
import GroupConsumer.Proofs.Run.Secluded
import GroupConsumer.Proofs.Slot.Held

/-!
# How positions are resolved

A check of the positions goes through up to two lookups. Partitions that have no position and await no
reset start from their committed offset, if there is a commit manager to ask; whatever is then still
without a position is reset, under the strategy that it awaits or else under the default. The ticket
of the check goes along and ends as soon as there is nothing more to do or something stands in the way.

`Resolves t p q` tells all courses that this can take, from the processor `p` that gets the event to
the processor `q` that has applied it, and on from there through the answers to the lookups. It is a
tree: where a lookup is asked for it says what comes of each answer (`Answers`), and so the second lookup
is told of under the answer to the first. Rounds of background progress that have nothing to apply may
pass on the way (`rests_progress`, `rests_applied`).
-/

namespace GroupConsumer

/-- Whether positions are looked up by the call. -/
def Call.looksUp : Call → Bool
  | fetchCommitted .. | resolveResets .. => true
  | _ => false

/-- The lookups of positions that have been asked for, in order. -/
def Session.lookups (s : Session) : List Call := s.calls.toList.filter (·.looksUp)

namespace Processor

variable {p q r : Processor} {t : Ticket} {d : Deferral} {o : Outcome Value}

/-! ### Tickets and answers -/

/-- The ticket is new: its slot is pending, nothing is linked to it, and it is not among the slots that
collaborators have answered with, all of which exist. -/
structure Free (p : Processor) (t : Ticket) : Prop where
  pending : p.session.slots.isPending t.slot = true
  unlinked : p.session.slots.LedBy (fun _ => False) t.slot
  filed : p.session.Filed
  unfiled : ∀ f ∈ p.session.futures.toList, f.2 ≠ t.slot

/-- The subscription stays, no manager comes or goes, no positions are looked up, and nobody is asked for
anything else that would be answered. -/
structure Stays (p q : Processor) : Prop where
  subscription : q.subscription = p.subscription
  managers : q.session.script.managers = p.session.script.managers
  lookups : q.session.lookups = p.session.lookups
  futures : q.session.futures = p.session.futures

/-- Nothing happens that lookups depend on, and no slot changes. Time may pass, and so may rounds of
background progress in which there is nothing to apply. -/
structure Rests (p q : Processor) : Prop extends Stays p q where
  cells : q.session.slots.cells = p.session.slots.cells
  deferred : q.session.deferred = p.session.deferred

/-- Nothing happens but that the ticket ends. -/
structure Concludes (p : Processor) (t : Ticket) (o : Outcome Value) (q : Processor) : Prop
    extends Stays p q where
  outcome : q.session.slots.outcome? t.slot = some o

/-- One call is made, which carries the number under which its answer is filed. -/
structure Asks (p : Processor) (call : Nat → Call) (q : Processor) : Prop where
  subscription : q.subscription = p.subscription
  managers : q.session.script.managers = p.session.script.managers
  calls : q.session.calls = p.session.calls.push (call p.session.futures.size)
  futures : ∃ answer, q.session.futures = p.session.futures.push answer

/-- Somebody completes the slot. -/
def settled (p : Processor) (i : SlotId) (x : Outcome Value) : Processor :=
  p.undergo (.outside (.settle i x))

/-- What lookups have left is applied, with which every round of background progress begins. -/
def applied (p : Processor) : Processor :=
  p.follow (.lookups :: p.session.deferred.map .deferred)

/-- The call of that number comes to be answered with `o`, and the processor `q` has applied the answer.
In between nothing else happens, and no other lookup is answered. The collaborator may have answered at
once; then its slot is not completed again. -/
inductive Answers (p : Processor) (t : Ticket) (n : Nat) (o : Outcome Value) : Processor → Prop
  | intro {r : Processor} {m : Method} {i : SlotId} {x : Outcome Value} (rests : p.Rests r)
      (filed : p.session.futures[n]? = some (m, i))
      (answer : (r.settled i x).session.slots.outcome? i = some o)
      (alone : ∀ u ∈ (r.settled i x).session.deferred, u.1.slot? = some t.slot) :
      Answers p t n o (r.settled i x).applied

theorem Stays.refl (p : Processor) : p.Stays p := ⟨rfl, rfl, rfl, rfl⟩

/-- A ticket is new when its slot is. -/
theorem Tidy.free_of_fresh (hp : p.Tidy) (ht : t.slot = p.session.slots.cells.size) :
    (p.undergo (.outside .fresh)).Free t where
  pending := by
    rw [ht]
    show p.session.slots.fresh.1.isPending p.session.slots.cells.size = true
    rw [Slots.isPending, Slots.fresh, Array.getElem?_push_size]
    rfl
  unlinked := (hp.unborn _ (Nat.le_of_eq ht.symm)).fresh
  filed f hf := by
    show f.2 < p.session.slots.fresh.1.cells.size
    rw [Slots.size_fresh]
    exact Nat.lt_succ_of_lt (hp.filed f hf)
  unfiled f hf := by
    rw [ht]
    exact Nat.ne_of_lt (hp.filed f hf)

/-- Without a group, a round of background progress does no more than to apply what lookups have left. -/
theorem rests_progress (hm : p.member = none) (now : Int64) : p.applied.Rests (p.progress now) := by
  rw [progress_of_none hm]
  show p.applied.Rests p.applied.drainOutcomes.1
  unfold drainOutcomes
  split
  · exact ⟨⟨rfl, rfl, rfl, rfl⟩, rfl, rfl⟩
  · exact ⟨.refl _, rfl, rfl⟩

/-- Where lookups have left nothing, there is nothing to apply. -/
theorem rests_applied (hd : p.session.deferred = []) : p.Rests p.applied := by
  have happlied : p.applied = { p with session := p.session.takeDeferred.1 } := by
    rw [applied, hd]
    rfl
  rw [happlied]
  exact ⟨⟨rfl, rfl, rfl, rfl⟩, rfl, hd.symm⟩

theorem Free.withSubscription (h : p.Free t) (f : Subscription → Subscription) :
    (p.withSubscription f).Free t := ⟨h.pending, h.unlinked, h.filed, h.unfiled⟩

theorem Free.concludes_complete (h : p.Free t) (o : Outcome Value) : p.Concludes t o (p.complete t o) where
  toStays := ⟨rfl, rfl, rfl, rfl⟩
  outcome := Slots.outcome?_settle_self h.pending o

theorem asks_askFor (p : Processor) (d : Deferral) (target : Option SlotId) (m : Method)
    (call : Nat → Call) : p.Asks call (p.askFor d target m call) where
  subscription := Session.subscription_ask p.session m call
  managers := (p.grows_askFor d target m call).follows.managers
  calls := by
    rw [← Array.toList_inj, (p.grows_askFor d target m call).calls, Array.toList_push]
  futures := by
    obtain ⟨slots, i, -, he⟩ := Session.ask_eq p.session m call
    refine ⟨(m, i), ?_⟩
    show (p.session.ask m call).1.futures = _
    rw [he]

/-- What comes of completing a slot does not depend on the journal. -/
theorem settled_congr (hc : q.session.slots.cells = p.session.slots.cells)
    (hd : q.session.deferred = p.session.deferred) (i : SlotId) (x : Outcome Value) :
    (q.settled i x).session.slots.cells = (p.settled i x).session.slots.cells ∧
      (q.settled i x).session.deferred = (p.settled i x).session.deferred := by
  let b : Slots Value Deferral := ⟨p.session.slots.cells, #[]⟩
  have hp : (p.settled i x).session.slots = (b.settle i x).recalling p.session.slots.journal := by
    show p.session.slots.settle i x = _
    rw [← Slots.settle_recalling, Slots.recalling_journal]
  have hq : (q.settled i x).session.slots = (b.settle i x).recalling q.session.slots.journal := by
    have hb : b = ⟨q.session.slots.cells, #[]⟩ := by rw [hc]
    show q.session.slots.settle i x = _
    rw [hb, ← Slots.settle_recalling, Slots.recalling_journal]
  rw [Session.deferred, Session.deferred] at hd
  rw [Session.deferred, Session.deferred, hp, hq]
  refine ⟨rfl, ?_⟩
  simp only [Slots.recalling, Array.toList_append, List.filterMap_append, hd]

/-! ### What becomes of an answer -/

/-- A value that is left for the ticket of a slot may complete the slot. -/
theorem mem_aimed_held {j : SlotId} {u : Deferral × Value} (h : u.1.slot? = some j) :
    j ∈ (Note.held u.1 u.2).aimed := by
  rw [Note.aimed, h]
  exact List.mem_singleton_self j

/-- Of what is left, nothing is taken but the value for the ticket, if no other lookup has left any. -/
theorem deferred_of_held {s : Session} {j : SlotId} {v : Value} {before after : List (Note Value Deferral)}
    (halone : ∀ u ∈ s.deferred, u.1.slot? = some j)
    (hheld : s.slots.journal.toList = before ++ .held d v :: after)
    (hothers : ∀ n ∈ before ++ after, j ∉ n.aimed) : s.deferred = [(d, v)] := by
  have hnone (ns : List (Note Value Deferral)) (hns : ∀ n ∈ ns, n ∈ before ++ after) :
      Session.deferred { s with slots := { s.slots with journal := ns.toArray } } = [] := by
    refine List.eq_nil_iff_forall_not_mem.2 fun u hu => ?_
    have hn : Note.held u.1 u.2 ∈ ns := Session.mem_deferred.1 hu
    have hs : Note.held u.1 u.2 ∈ s.slots.journal.toList := by
      rw [hheld]
      exact (List.mem_append.1 (hns _ hn)).elim (List.mem_append_left _)
        fun h => List.mem_append_right _ (List.mem_cons_of_mem _ h)
    exact hothers _ (hns _ hn) (mem_aimed_held (halone u (Session.mem_deferred.2 hs)))
  have hbefore := hnone before fun _ => List.mem_append_left _
  have hafter := hnone after fun _ => List.mem_append_right _
  rw [Session.deferred] at hbefore hafter ⊢
  rw [hheld, List.filterMap_append, List.filterMap_cons, hbefore, hafter]
  rfl

/-- What comes of the answer to a lookup for the ticket: its value is applied while the ticket is still
new, or the ticket has ended with its fault. -/
inductive Redeems (p : Processor) (t : Ticket) (d : Deferral) : Outcome Value → Processor → Prop
  | value {v : Value} {r : Processor} (free : r.Free t) (stays : p.Stays r) :
      Redeems p t d (.ok v) (r.applyDeferred (d, v))
  | fault {f : Fault} {q : Processor} (concludes : p.Concludes t (.error f) q) : Redeems p t d (.error f) q

/-- A ticket that is new is still so when a collaborator has been asked, and the slot of the answer is
another one. -/
theorem Free.ask (h : p.Free t) (m : Method) (call : Nat → Call) :
    ({ p with session := (p.session.ask m call).1 } : Processor).Free t ∧
      (p.session.ask m call).2 ≠ t.slot := by
  obtain ⟨hlt, hnone⟩ := Slots.isPending_iff.1 h.pending
  have hp : p.session.Proceeds (fun _ => False) (fun _ => False) (p.session.ask m call).1 :=
    Session.proceeds_ask p.session _ _ m call
  have hne : (p.session.ask m call).2 ≠ t.slot := by
    obtain ⟨f, hf, he⟩ | hle := Session.ask_cases p.session m call
    · exact he ▸ h.unfiled f hf
    · exact Nat.ne_of_gt (Nat.lt_of_lt_of_le hlt hle)
  refine ⟨⟨?_, hp.worksOn.links _ t.slot id h.unlinked, hp.filed h.filed, fun f hf => ?_⟩, hne⟩
  · rw [Slots.isPending_iff, hp.worksOn.outcome _ t.slot hlt id h.unlinked fun _ => False.elim]
    exact ⟨Nat.lt_of_lt_of_le hlt hp.size, hnone⟩
  · obtain ⟨slots, i, -, he⟩ := Session.ask_eq p.session m call
    rw [he] at hf hne
    obtain hf | hf := List.mem_append.1 (Array.toList_push ▸ hf)
    · exact h.unfiled f hf
    · rw [List.mem_singleton.1 hf]
      exact hne

/-- A lookup for a new ticket comes to what its answer says. -/
theorem Free.redeems (h : p.Free t) {m : Method} {call : Nat → Call}
    (ha : (p.askFor d (some t.slot) m call).Answers t p.session.futures.size o q) :
    (p.askFor d (some t.slot) m call).Redeems t d o q := by
  obtain ⟨hrests, hfiled, ho, halone⟩ := ha
  rename_i r m' i x
  obtain ⟨hs, hne⟩ := h.ask m call
  -- The answer is filed under the number of the call.
  obtain ⟨rfl, rfl⟩ : m = m' ∧ (p.session.ask m call).2 = i :=
    Prod.mk.inj (Option.some.inj ((Session.futures_ask p.session m call).symm.trans hfiled))
  have hi := hs.filed _ (Array.mem_toList_iff.2 (Array.mem_of_getElem? hfiled))
  -- The slot might as well have been completed at once, which comes to `y`.
  let y := (p.askFor d (some t.slot) m call).settled (p.session.ask m call).2 x
  obtain ⟨hcells, hdeferred⟩ := settled_congr hrests.cells hrests.deferred
    (p.session.ask m call).2 x
  have hw : (p.askFor d (some t.slot) m call).Stays
      (r.settled (p.session.ask m call).2 x) := ⟨hrests.1.1, hrests.1.2, hrests.1.3, hrests.1.4⟩
  generalize r.settled (p.session.ask m call).2 x = w at *
  have hk : Slots.Kept d t.slot y.session.slots o := by
    refine Slots.kept_of_outcome? hs.unlinked hs.pending hi hne ?_
    rw [Slots.outcome?, hcells] at ho
    exact ho
  have hsize : y.session.slots.cells.size = (p.session.ask m call).1.slots.cells.size :=
    (Slots.size_settle _ _ _).trans (Slots.size_listen _ _ _)
  rw [hdeferred] at halone
  -- When what is left has been taken, the slots are those of `y`.
  let z : Processor := { w with session := w.session.takeDeferred.1 }
  have hz : (p.askFor d (some t.slot) m call).Stays z := ⟨hw.1, hw.2, hw.3, hw.4⟩
  have hslots : z.session.slots = ⟨y.session.slots.cells, #[]⟩ := by
    rw [← hcells]
    rfl
  cases hk with
  | @value v before after pending unlinked held others =>
    have happlied : w.applied = z.applyDeferred (d, v) := by
      rw [applied, hdeferred, deferred_of_held halone held others]
      rfl
    rw [happlied]
    refine .value ⟨?_, ?_, fun f hf => ?_, fun f hf => ?_⟩ hz
    · rw [hslots]
      exact pending
    · rw [hslots]
      exact unlinked
    · rw [hz.futures] at hf
      rw [hslots]
      exact hsize ▸ hs.filed f hf
    · rw [hz.futures] at hf
      exact hs.unfiled f hf
  | @fault f failed unlinked =>
    have hnone : w.session.deferred = [] :=
      hdeferred.trans <| List.eq_nil_iff_forall_not_mem.2 fun u hu =>
        unlinked.journal _ (Session.mem_deferred.1 hu) (mem_aimed_held (halone u hu))
    have happlied : w.applied = z := by
      rw [applied, hnone]
      rfl
    rw [happlied]
    refine .fault ⟨hz, ?_⟩
    rw [hslots]
    exact failed

/-! ### Resets -/

/-- The positions that a reset has found are taken over where there was none, and the ticket tells whether
all partitions now have one. -/
structure Locates (p : Processor) (t : Ticket) (found : PositionMap) (q : Processor) : Prop where
  assigned : q.subscription.assigned = p.subscription.assigned
  position : ∀ tp ∈ p.subscription.assigned,
    q.subscription.position? tp = (p.subscription.position? tp).or (found.get? tp)
  lookups : q.session.lookups = p.session.lookups
  outcome : ∃ b, q.session.slots.outcome? t.slot = some (.ok (.flag b)) ∧
    (b = true ↔ ∀ tp ∈ q.subscription.assigned, (q.subscription.position? tp).isSome = true)

/-- The courses of a reset of all partitions that have no position, from `p` to `q` and on from there. -/
inductive Resets (t : Ticket) (p q : Processor) : Prop
  /-- There is nothing to reset. -/
  | complete (all : ∀ tp ∈ p.subscription.assigned, (p.subscription.position? tp).isSome = true)
      (concludes : p.Concludes t (.ok (.flag true)) q)
  /-- The strategy for a partition is none. -/
  | unguided {tp : TopicPartition} {r : Option ResetStrategy} (lacks : p.subscription.Lacks tp r)
      (policy : r.getD p.subscription.defaultReset = .none)
      (concludes : p.Concludes t (.error (.illegalState (.noResetPolicy tp))) q)
  /-- There is no offsets manager to ask. -/
  | unserved {tp : TopicPartition} {r : Option ResetStrategy} (lacks : p.subscription.Lacks tp r)
      (guided : ∀ tp r, p.subscription.Lacks tp r → r.getD p.subscription.defaultReset ≠ .none)
      (absent : p.has .offsets = false)
      (concludes : p.Concludes t (.error (.missingCollaborator Missing.offsets.name
        AppEvent.Kind.checkPositions.name)) q)
  /-- Every partition without a position is asked for once, under its strategy. The positions in the
  answer are taken over, and a fault ends the ticket. -/
  | asked {resets : List (TopicPartition × ResetStrategy)} (needed : resets ≠ [])
      (once : (resets.map (·.1)).Nodup)
      (each : ∀ tp s, (tp, s) ∈ resets ↔
        ∃ r, p.subscription.Lacks tp r ∧ r.getD p.subscription.defaultReset = s)
      (guided : ∀ e ∈ resets, e.2 ≠ .none) (served : p.has .offsets = true)
      (asks : p.Asks (.resolveResets resets t.deadline ·) q)
      (found : ∀ v q', q.Answers t p.session.futures.size (.ok v) q' →
        (∀ tp ∈ (positionsOf v).keys, ∃ s, (tp, s) ∈ resets) → q.Locates t (positionsOf v) q')
      (failed : ∀ f q', q.Answers t p.session.futures.size (.error f) q' → q.Concludes t (.error f) q')

theorem Free.locates (h : r.Free t) {v : Value}
    (hnames : ∀ tp ∈ (positionsOf v).keys, ∃ s, r.subscription.Lacks tp s) :
    r.Locates t (positionsOf v) (r.applyDeferred (.positions t, v)) where
  assigned := (Subscription.alike_takePositions _ _).assigned
  position tp htp := by
    refine (Subscription.position?_takePositions htp _).trans ?_
    cases ho : r.subscription.position? tp with
    | none => exact Option.or_none
    | some o =>
      -- The reply leaves a partition out that has a position.
      have hn : (positionsOf v).get? tp = none := by
        rw [← Option.not_isSome_iff_eq_none, ← SortedMap.mem_keys]
        intro hk
        obtain ⟨s, hs⟩ := hnames tp hk
        exact Subscription.not_lacks_of_position? ho s hs
      rw [hn]
      rfl
  lookups := rfl
  outcome := ⟨_, ((h.withSubscription _).concludes_complete _).outcome, Subscription.hasAllPositions_iff⟩

theorem Locates.of_stays {found : PositionMap} (h : r.Locates t found q) (hs : p.Stays r) :
    p.Locates t found q where
  assigned := h.assigned.trans (by rw [hs.subscription])
  position := by
    rw [← hs.subscription]
    exact h.position
  lookups := h.lookups.trans hs.lookups
  outcome := h.outcome

/-- Every partition without a position is asked for once, under the strategy that it awaits, or else under
the default. -/
theorem resets_needingPosition {s : Subscription} {resets : List (TopicPartition × ResetStrategy)}
    (h : resets = s.needingPosition.map fun e => (e.1, e.2.getD s.defaultReset)) :
    (resets.map (·.1)).Nodup ∧ ∀ tp strategy, (tp, strategy) ∈ resets ↔
      ∃ r, s.Lacks tp r ∧ r.getD s.defaultReset = strategy := by
  subst h
  refine ⟨?_, fun tp strategy => ?_⟩
  · rw [List.map_map]
    exact s.nodup_needingPosition
  · rw [List.mem_map]
    constructor
    · rintro ⟨⟨tp', r⟩, hm, he⟩
      cases he
      exact ⟨r, Subscription.mem_needingPosition.1 hm, rfl⟩
    · rintro ⟨r, hl, rfl⟩
      exact ⟨(tp, r), Subscription.mem_needingPosition.2 hl, rfl⟩

/-- With a new ticket, a reset takes one of its courses. -/
theorem Free.resets (h : p.Free t) : Resets t p (p.resetPositions t) := by
  unfold resetPositions
  simp only
  split
  · rename_i hn
    have hall := Subscription.forall_not_lacks_iff.1 (Subscription.needingPosition_isEmpty.1 hn)
    exact .complete hall (h.concludes_complete _)
  · rename_i hn
    have hne : p.subscription.needingPosition ≠ [] := fun h => hn (List.isEmpty_iff.2 h)
    split
    · rename_i tp hr
      obtain ⟨r, hm, hnone⟩ := resetsFor_eq_error hr
      exact .unguided (Subscription.mem_needingPosition.1 hm) hnone (h.concludes_complete _)
    · rename_i resets hr
      obtain ⟨hguided, hresets⟩ := resetsFor_eq_ok hr
      obtain ⟨honce, heach⟩ := resets_needingPosition hresets
      split
      · rename_i hserved
        have hasks := p.asks_askFor (.positions t) (some t.slot) .resolveResets
          (.resolveResets resets t.deadline ·)
        refine .asked (fun hnil => ?_) honce heach (fun e he => ?_) hserved hasks
          (fun v q' ha hnames => ?_) fun f q' ha => ?_
        · rw [hnil, eq_comm, List.map_eq_nil_iff] at hresets
          exact hne hresets
        · obtain ⟨r, hl, hs⟩ := (heach e.1 e.2).1 he
          exact hs ▸ hguided _ (Subscription.mem_needingPosition.2 hl)
        · cases h.redeems ha with
          | @value v r free stays =>
            refine (free.locates fun tp htp => ?_).of_stays stays
            obtain ⟨s, hs⟩ := hnames tp htp
            obtain ⟨reset, hl, -⟩ := (heach tp s).1 hs
            have hsub : r.subscription = p.subscription := stays.subscription.trans hasks.subscription
            exact ⟨reset, hsub ▸ hl⟩
        · cases h.redeems ha with
          | fault concludes => exact concludes
      · rename_i habsent
        obtain ⟨e, he⟩ := List.exists_mem_of_ne_nil _ hne
        exact .unserved (Subscription.mem_needingPosition.1 he)
          (fun tp r hl => hguided (tp, r) (Subscription.mem_needingPosition.2 hl))
          (Bool.eq_false_iff.2 habsent) (h.concludes_complete _)

/-! ### Committed offsets -/

/-- Committed offsets are taken over where there is no position, and nothing else happens to what
lookups depend on. -/
structure Starts (p : Processor) (committed : OffsetMap) (q : Processor) : Prop where
  assigned : q.subscription.assigned = p.subscription.assigned
  position : ∀ tp ∈ p.subscription.assigned, q.subscription.position? tp =
    (p.subscription.position? tp).or ((committed.get? tp).map (·.offset))
  lacks : ∀ tp r,
    q.subscription.Lacks tp r ↔ p.subscription.Lacks tp r ∧ committed.get? tp = none
  default : q.subscription.defaultReset = p.subscription.defaultReset
  managers : q.session.script.managers = p.session.script.managers
  lookups : q.session.lookups = p.session.lookups
  futures : q.session.futures = p.session.futures

/-- The courses of a check of the positions, from `p` to `q` and on from there. -/
inductive Resolves (t : Ticket) (p q : Processor) : Prop
  /-- No committed offsets are asked for. -/
  | straight (spares : p.has .commit = false ∨ ∀ tp, ¬ p.subscription.Lacks tp none)
      (resets : Resets t p q) : Resolves t p q
  /-- Committed offsets are asked for, for exactly the partitions that have no position and await no
  reset. They are taken over, and what still has no position is reset. A fault ends the ticket. -/
  | asked {parts : PartitionSet} (needed : ∃ tp, tp ∈ parts)
      (each : ∀ tp, tp ∈ parts ↔ p.subscription.Lacks tp none) (served : p.has .commit = true)
      (asks : p.Asks (.fetchCommitted parts t.deadline ·) q)
      (found : ∀ v q', q.Answers t p.session.futures.size (.ok v) q' →
        ∃ r, q.Starts (offsetsOf v) r ∧ Resets t r q')
      (failed : ∀ f q', q.Answers t p.session.futures.size (.error f) q' →
        q.Concludes t (.error f) q')

theorem starts_takeCommitted (h : p.Stays r) (m : OffsetMap) :
    p.Starts m (r.withSubscription (takeCommitted · m)) where
  assigned := by
    rw [← h.subscription]
    exact (Subscription.alike_takeCommitted _ _).assigned
  position := by
    rw [← h.subscription]
    exact fun tp htp => Subscription.position?_takeCommitted htp m
  lacks := by
    rw [← h.subscription]
    exact fun tp r => Subscription.lacks_takeCommitted m
  default := by
    rw [← h.subscription]
    exact Subscription.defaultReset_takeCommitted _ m
  managers := h.managers
  lookups := h.lookups
  futures := h.futures

/-- With a new ticket, a check of the positions takes one of its courses, whatever the subscription is,
whichever managers there are, and whatever they answer. -/
theorem resolves_checkPositions (h : p.Free t) : Resolves t p (p.process (.checkPositions t)) := by
  show Resolves t p (p.checkPositions t)
  unfold checkPositions
  simp only
  split
  · rename_i hn
    have hnone := Subscription.needingPosition_isEmpty.1 hn
    exact .straight (Or.inr fun tp => hnone tp none)
      (.complete (Subscription.forall_not_lacks_iff.1 hnone) (h.concludes_complete _))
  · split
    · rename_i hc
      rw [Bool.and_eq_true, Bool.not_eq_true', Bool.eq_false_iff] at hc
      obtain ⟨hserved, hne⟩ := hc
      have hneeded : ∃ tp, tp ∈ p.uncommitted := by
        obtain ⟨tp, htp⟩ := List.exists_mem_of_ne_nil _ fun h => hne (List.isEmpty_iff.2 h)
        exact ⟨tp, htp⟩
      refine .asked hneeded (fun _ => mem_uncommitted) hserved (p.asks_askFor (.committed t) _ _ _)
        (fun v q' ha => ?_) fun f q' ha => ?_
      · cases h.redeems ha with
        | value free stays =>
          exact ⟨_, starts_takeCommitted stays _, (free.withSubscription _).resets⟩
      · cases h.redeems ha with
        | fault concludes => exact concludes
    · rename_i hn
      refine .straight ?_ h.resets
      by_cases hc : p.has .commit = true
      · refine Or.inr fun tp hl => hn ?_
        rw [hc, Bool.true_and, Bool.not_eq_true', Bool.eq_false_iff]
        intro hnil
        have htp : tp ∈ p.uncommitted := mem_uncommitted.2 hl
        rw [uncommitted, SortedSet.isEmpty_iff.1 hnil] at htp
        exact SortedSet.not_mem_empty tp htp
      · exact Or.inl (Bool.eq_false_iff.2 hc)

/-- A consumer with four partitions: the first has a position, the third awaits a reset, and the others
have nothing. -/
def mixed : Processor where
  session := {
    subscription := {
      assignment := .ofList [(⟨"t", 0⟩, { position := some 3 }), (⟨"t", 1⟩, {}),
        (⟨"t", 2⟩, { pendingReset := some .latest }), (⟨"t", 3⟩, {})]
      defaultReset := .earliest }
    script := { managers := [.commit, .offsets] } }

theorem tidy_mixed : mixed.Tidy where
  steady _ hx := by cases hx
  filed _ hf := absurd hf List.not_mem_nil
  leave _ hl := by cases hl
  unborn j _ := Slots.ledBy_empty _ j

/-- The consumer has issued a ticket and checked its positions. -/
def mixedChecked : Processor := (mixed.undergo (.outside .fresh)).process (.checkPositions (ticketAt 0))

/-- An offset has been committed for the second partition. -/
def mixedCommitted : Value := .offsets (.ofList [(⟨"t", 1⟩, ⟨7, none, ""⟩)])

/-- The consumer asks for committed offsets first, takes the one that there is, and resets the rest. -/
theorem resolves_checkPositions_mixed :
    (mixed.undergo (.outside .fresh)).Free (ticketAt 0) ∧
      Resolves (ticketAt 0) (mixed.undergo (.outside .fresh)) mixedChecked ∧
      ∃ r, mixedChecked.Starts (offsetsOf mixedCommitted) r ∧
        Resets (ticketAt 0) r (mixedChecked.settled 1 (.ok mixedCommitted)).applied := by
  have hfree : (mixed.undergo (.outside .fresh)).Free (ticketAt 0) := tidy_mixed.free_of_fresh rfl
  have hanswers : mixedChecked.Answers (ticketAt 0) 0 (.ok mixedCommitted)
      (mixedChecked.settled 1 (.ok mixedCommitted)).applied :=
    .intro (m := .fetchCommitted) ⟨.refl _, rfl, rfl⟩ (by decide +kernel)
      (Slots.outcome?_settle_self (by decide +kernel) _) (by decide +kernel)
  have hresolves := resolves_checkPositions hfree
  refine ⟨hfree, hresolves, ?_⟩
  cases hresolves with
  | straight spares =>
    obtain hcommit | hlacks := spares
    · cases hcommit
    · exact absurd ⟨{}, by decide +kernel, rfl, rfl⟩ (hlacks ⟨"t", 1⟩)
  | asked _ _ _ _ found => exact found _ _ hanswers

/-- When both lookups have been answered, every partition has the position that is due to it. -/
example :
    let q := [.progress 0, .outside (.settle 1 (.ok mixedCommitted)), .progress 0, .progress 0,
      .outside (.settle 2 (.ok (.positions (.ofList [(⟨"t", 2⟩, 9), (⟨"t", 3⟩, 0)])))),
      .progress 0].foldl act mixedChecked
    q.session.calls = #[.fetchCommitted (.ofList [⟨"t", 1⟩, ⟨"t", 3⟩]) 0 0,
        .resolveResets [(⟨"t", 2⟩, .latest), (⟨"t", 3⟩, .earliest)] 0 1] ∧
      [0, 1, 2, 3].map (fun n => q.subscription.position? ⟨"t", n⟩) =
        [some 3, some 7, some 9, some 0] ∧
      (q.session.slots.outcome? 0).bind (·.toOption) = some (.flag true) := by
  decide +kernel

end Processor

end GroupConsumer
