import GroupConsumer.Client.Basic
import GroupConsumer.Proofs.Expiry

/-!
# Caller and reaper agree on when time is up

A deadline, what is left of it and how long ago it was are clamped to 64 bits each on its own. Clamping
keeps the sign of a difference, so that a wait has nothing left (`remaining_eq_zero_iff`) exactly when the
reaper finds the ticket due, at both ends of the range too (`expires_when_due`).
-/

namespace GroupConsumer

variable {created timeout now deadline : Int64}

theorem toInt_deadlineAfter (created timeout : Int64) :
    (deadlineAfter created timeout).toInt =
      max Int64.minValue.toInt (min Int64.maxValue.toInt (created.toInt + timeout.toInt)) :=
  toInt_clamp _

/-- Nothing is left from the deadline on. -/
theorem remaining_eq_zero_iff : remaining now deadline = 0 ↔ deadline ≤ now := by
  have hmax : 0 < Int64.maxValue.toInt := by decide
  rw [← Int64.toInt_inj, toInt_remaining, Int64.toInt_zero, Int64.le_iff_toInt_le]
  omega

/-- A timeout has passed in full by the deadline, unless it would end beyond the last reading there is. -/
theorem add_le_of_deadlineAfter_le (h : deadlineAfter created timeout ≤ now) :
    created.toInt + timeout.toInt ≤ now.toInt ∨
      Int64.maxValue.toInt < created.toInt + timeout.toInt := by
  rw [Int64.le_iff_toInt_le, toInt_deadlineAfter] at h
  omega

/-- A caller who waits for a ticket that is due waits no longer, and is told what the reaper says. -/
theorem Client.wait_of_due {c : Client} {t : Ticket} (hp : c.session.slots.isPending t.slot = true)
    (hdue : t.deadline ≤ c.session.clock) :
    c.wait t = (c, .error (.expired t.describe c.session.clock t.deadline)) := by
  have hopen : c.loop.session.slots.outcome? t.slot = none := (Slots.isPending_iff.1 hp).2
  rw [wait, if_pos (remaining_eq_zero_iff.2 hdue), BackgroundLoop.outcomeOrTimeout, hopen]
  rfl

namespace Reaper

variable {s : Slots Value Deferral} {earlier later ts : List Ticket} {t : Ticket}
  {fault? : Ticket → Option Fault} {f : Fault}

/-- A ticket is visited with the slots as the earlier visits have left them. -/
theorem mem_turns (earlier later : List Ticket) (t : Ticket) (s : Slots Value Deferral) :
    (t, pass fault? earlier s) ∈ turns fault? (earlier ++ t :: later) s := by
  induction earlier generalizing s with
  | nil => exact List.mem_cons_self
  | cons r earlier ih => exact List.mem_cons_of_mem _ (ih (visit fault? s r))

/-- A ticket that is open when its turn comes fails from its deadline on. -/
theorem fails_iff (hp : (pass (overdueFault? now) earlier s).isPending t.slot = true) :
    (∃ f, Fails (overdueFault? now) (earlier ++ t :: later) s t f) ↔ t.deadline ≤ now := by
  constructor
  · rintro ⟨f, -, -, -, hf, -⟩
    exact (overdueFault?_eq_some hf).1
  · intro hdue
    refine ⟨_, earlier, later, rfl, overdueFault?_of_le hdue, ?_⟩
    rwa [Slots.complete_snd]

/-- Before its deadline it stays under watch. -/
theorem mem_tracked_sweep_of_lt (hp : (pass (overdueFault? now) earlier s).isPending t.slot = true)
    (hleft : now < t.deadline) :
    t ∈ ((⟨earlier ++ t :: later⟩ : Reaper).sweep now s).1.tracked := by
  have hopen : (pass (overdueFault? now) earlier s).isDone t.slot = false := by
    rw [Slots.isDone, (Slots.isPending_iff.1 hp).2]
    rfl
  have hstays : stays now t (pass (overdueFault? now) earlier s) = true := by
    simp [stays, hopen, hleft]
  show t ∈ (sweepList now (earlier ++ t :: later) s).kept
  rw [kept_sweepList]
  exact List.mem_map.2 ⟨_, List.mem_filter.2 ⟨mem_turns earlier later t s, hstays⟩, rfl⟩

/-- A failure says how far the deadline lies back, exactly as far as that is a 64-bit number. -/
theorem Fails.late (h : Fails (overdueFault? now) ts s t f) :
    f = .timeout t.describe (overdue now t.deadline) t.deadline ∧ 0 ≤ overdue now t.deadline ∧
      ((⟨ts⟩ : Reaper).sweep now s).2.1.outcome? t.slot = some (.error f) := by
  obtain ⟨-, -, hout⟩ := h.outcome
  obtain ⟨-, -, -, hf, -⟩ := h
  obtain ⟨hdue, rfl⟩ := overdueFault?_eq_some hf
  refine ⟨rfl, of_decide_eq_true (Ticket.isDue_iff.2 hdue), ?_⟩
  show (sweepList now ts s).slots.outcome? t.slot = _
  rw [(sweepList_eq now ts s).1]
  exact hout

/-- Whatever the times are, the deadline and what is left of it are exact, up to the ends of the range. A
sweep fails a ticket that is open when its turn comes exactly if its deadline is reached, which is when
nothing is left for a caller to wait, and keeps it otherwise. What it reports is the exact delay, up to the
end of the range and never negative, and a caller is told the same. No ticket fails before its timeout has
passed in full, unless it would end beyond the range. -/
theorem expires_when_due (created timeout now : Int64) :
    (deadlineAfter created timeout).toInt =
        max Int64.minValue.toInt (min Int64.maxValue.toInt (created.toInt + timeout.toInt)) ∧
      let d := deadlineAfter created timeout
      (remaining now d).toInt = max 0 (min Int64.maxValue.toInt (d.toInt - now.toInt)) ∧
      (remaining now d = 0 ↔ d ≤ now) ∧
      (∀ (s : Slots Value Deferral) (earlier : List Ticket) (t : Ticket) (later : List Ticket),
        t.deadline = d → (pass (overdueFault? now) earlier s).isPending t.slot = true →
        let ts := earlier ++ t :: later
        ((∃ f, Fails (overdueFault? now) ts s t f) ↔ d ≤ now) ∧
          (now < d → t ∈ ((⟨ts⟩ : Reaper).sweep now s).1.tracked)) ∧
      (∀ (s : Slots Value Deferral) (ts : List Ticket) (t : Ticket) (f : Fault),
        t.deadline = d → Fails (overdueFault? now) ts s t f →
        ((⟨ts⟩ : Reaper).sweep now s).2.1.outcome? t.slot = some (.error f) ∧
          f = .timeout t.describe (overdue now d) d ∧
          (overdue now d).toInt =
            max Int64.minValue.toInt (min Int64.maxValue.toInt (now.toInt - d.toInt)) ∧
          0 ≤ overdue now d ∧
          (created.toInt + timeout.toInt ≤ now.toInt ∨
            Int64.maxValue.toInt < created.toInt + timeout.toInt)) ∧
      ∀ (c : Client) (t : Ticket), c.session.clock = now → t.deadline = d →
        c.session.slots.isPending t.slot = true → remaining now d = 0 →
        c.wait t = (c, .error (.timeout t.describe (overdue now d) d)) := by
  refine ⟨toInt_deadlineAfter created timeout, ?_⟩
  intro d
  refine ⟨toInt_remaining now d, remaining_eq_zero_iff, ?_, ?_, ?_⟩
  · intro s earlier t later hd hp
    rw [← hd]
    exact ⟨fails_iff hp, mem_tracked_sweep_of_lt hp⟩
  · intro s ts t f hd h
    obtain ⟨hf, hpos, hout⟩ := h.late
    rw [hd] at hf hpos
    obtain ⟨-, -, -, hfault, -⟩ := h
    have hdue : d ≤ now := hd ▸ (overdueFault?_eq_some hfault).1
    exact ⟨hout, hf, toInt_clamp _, hpos, add_le_of_deadlineAfter_le hdue⟩
  · rintro c t rfl hd hp hzero
    have hdue : t.deadline ≤ c.session.clock := hd ▸ remaining_eq_zero_iff.1 hzero
    rw [Client.wait_of_due hp hdue, hd]
    rfl

/-- A timeout runs out below the range, and the ticket is found due at its other end, behind one that is
due too. Another timeout runs out above the range, and is looked at from below. -/
theorem expires_when_due_at_the_ends :
    let early : Ticket := ⟨"", Int64.minValue, deadlineAfter Int64.minValue (-1), 1⟩
    let late : Ticket := ⟨"", 5, deadlineAfter 5 Int64.maxValue, 1⟩
    let other : Ticket := ⟨"", 0, 7, 0⟩
    let s : Slots Value Deferral := ⟨#[{}, {}], #[]⟩
    let c : Client := { config := {}, loop := { processor := { session := {
      slots := s, clock := Int64.maxValue } } } }
    let f : Fault := .timeout early.describe Int64.maxValue Int64.minValue
    ((pass (overdueFault? Int64.maxValue) [other] s).isPending 1 = true ∧
      early.deadline = Int64.minValue ∧ remaining Int64.maxValue early.deadline = 0 ∧
      Fails (overdueFault? Int64.maxValue) [other, early] s early f ∧
      ((⟨[other, early]⟩ : Reaper).sweep Int64.maxValue s).2.1.outcome? 1 = some (.error f) ∧
      c.session.slots.isPending 1 = true ∧ c.wait early = (c, .error f)) ∧
    (pass (overdueFault? Int64.minValue) [other] s).isPending 1 = true ∧
      late.deadline = Int64.maxValue ∧ Int64.minValue < late.deadline ∧
      late ∈ ((⟨[other, late]⟩ : Reaper).sweep Int64.minValue s).1.tracked := by
  intro early late other s c f
  obtain ⟨-, -, -, -, hfails, hwait⟩ := expires_when_due Int64.minValue (-1) Int64.maxValue
  obtain ⟨-, -, -, hkept, -, -⟩ := expires_when_due 5 Int64.maxValue Int64.minValue
  have hfail : Fails (overdueFault? Int64.maxValue) [other, early] s early f :=
    ⟨[other], [], rfl, by decide +kernel, by decide +kernel⟩
  have hpending : (pass (overdueFault? Int64.minValue) [other] s).isPending 1 = true := by decide +kernel
  have hleft : Int64.minValue < late.deadline := by decide +kernel
  refine ⟨⟨by decide +kernel, by decide +kernel, by decide +kernel, hfail, ?_, rfl, ?_⟩, hpending,
    by decide +kernel, hleft, ?_⟩
  · exact (hfails s [other, early] early f rfl hfail).1
  · refine (hwait c early rfl rfl rfl (by decide +kernel)).trans ?_
    have hf : f = .timeout early.describe (overdue Int64.maxValue early.deadline) early.deadline := by
      decide +kernel
    rw [hf]
  · exact (hkept s [other] late [] rfl hpending).2 hleft

end Reaper

end GroupConsumer
