import GroupConsumer.Time

/-!
# Metrics of a consumer

Two gauges, which show the last recorded size, and five counters, which add up what is recorded and
wrap around at 64 bits. A negative time counts as none.
-/

namespace GroupConsumer

/-- The gauges and counters of a consumer. -/
structure Metrics where
  applicationSize : UInt64 := 0
  backgroundSize : UInt64 := 0
  applicationTime : UInt64 := 0
  backgroundTime : UInt64 := 0
  processed : UInt64 := 0
  expired : UInt64 := 0
  shutdownExpired : UInt64 := 0
deriving DecidableEq, Repr

namespace Metrics

/-- Records how many application events wait. -/
def withApplicationSize (m : Metrics) (n : Nat) : Metrics :=
  { m with applicationSize := UInt64.ofNat n }

/-- Records how many background events wait. -/
def withBackgroundSize (m : Metrics) (n : Nat) : Metrics :=
  { m with backgroundSize := UInt64.ofNat n }

/-- Adds the time an application event has waited. -/
def addApplicationTime (m : Metrics) (ms : Int64) : Metrics :=
  { m with applicationTime := m.applicationTime + (max ms 0).toUInt64 }

/-- Adds the time a background event has waited. -/
def addBackgroundTime (m : Metrics) (ms : Int64) : Metrics :=
  { m with backgroundTime := m.backgroundTime + (max ms 0).toUInt64 }

/-- Adds application events that were processed. -/
def addProcessed (m : Metrics) (n : Nat) : Metrics :=
  { m with processed := m.processed + UInt64.ofNat n }

/-- Adds events that ran past their deadline. -/
def addExpired (m : Metrics) (n : Nat) : Metrics :=
  { m with expired := m.expired + UInt64.ofNat n }

/-- Adds events that were failed because the consumer closed. -/
def addShutdownExpired (m : Metrics) (n : Nat) : Metrics :=
  { m with shutdownExpired := m.shutdownExpired + UInt64.ofNat n }

/-- All seven, gauges first. -/
def toList (m : Metrics) : List UInt64 :=
  [m.applicationSize, m.backgroundSize, m.applicationTime, m.backgroundTime, m.processed, m.expired,
    m.shutdownExpired]

end Metrics

end GroupConsumer
