/-!
# Clock readings, deadlines and what is left of them

All times are milliseconds in 64 signed bits. A deadline is a reading plus a timeout and what is
left of it a difference; both are computed exactly and then clamped to the 64-bit range, so that a
timeout of any size gives a usable deadline. `toInt_clamp` says what clamping does.
-/

namespace GroupConsumer

/-- The 64-bit number nearest to an integer. -/
def clamp (x : Int) : Int64 := Int64.ofIntClamp x

theorem toInt_clamp (x : Int) :
    (clamp x).toInt = max Int64.minValue.toInt (min Int64.maxValue.toInt x) := by
  have hmin : Int64.minValue.toInt < Int64.maxValue.toInt := by decide
  rw [clamp, Int64.ofIntClamp]
  split
  · split
    · rw [Int64.toInt_ofIntLE]
      omega
    · omega
  · omega

theorem toInt_max (a b : Int64) : (max a b).toInt = max a.toInt b.toInt := by
  show (if a ≤ b then b else a).toInt = _
  simp only [Int64.le_iff_toInt_le]
  split
  · omega
  · omega

/-- The reading at which a timeout that starts at `now` has passed. -/
def deadlineAfter (now timeout : Int64) : Int64 := clamp (now.toInt + timeout.toInt)

/-- How far `now` lies past a deadline; negative before it. -/
def overdue (now deadline : Int64) : Int64 := clamp (now.toInt - deadline.toInt)

/-- How long a wait from `now` to a deadline may last, never negative. -/
def remaining (now deadline : Int64) : Int64 := max (clamp (deadline.toInt - now.toInt)) 0

/-- What is left is exact from zero up to the largest number there is. -/
theorem toInt_remaining (now deadline : Int64) :
    (remaining now deadline).toInt = max 0 (min Int64.maxValue.toInt (deadline.toInt - now.toInt)) := by
  have hmin : Int64.minValue.toInt < 0 := by decide
  rw [remaining, toInt_max, toInt_clamp, Int64.toInt_zero]
  omega

end GroupConsumer
