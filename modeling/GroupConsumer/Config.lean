import GroupConsumer.Fault
import GroupConsumer.Text.Blank
import GroupConsumer.Text.Quoted

/-!
# Configuration of a consumer

The settings, their defaults, the bounds that are checked before a consumer starts, and their text
form. `validate` reports the first setting that is out of bounds, in the order of its clauses.
-/

namespace GroupConsumer

/-! Defaults and bounds of the settings, and the intervals of the loops; times in milliseconds. -/

namespace Defaults

def apiTimeout : Int64 := 60000
def requestTimeout : Int64 := 30000
def leastRequestTimeout : Int64 := 1
def autoCommitInterval : Int64 := 5000
def retryBackoff : Int64 := 100
def closeTimeout : Int64 := 30000
def maxPollWait : Int64 := 5000
def leastMaxPollWait : Int64 := 1
def mostMaxPollWait : Int64 := 60000
def callbackCheckInterval : Int64 := 10
def pendingRequestPollInterval : Int64 := 10

/-- All times. -/
def times : List Int64 :=
  [apiTimeout, requestTimeout, leastRequestTimeout, autoCommitInterval, retryBackoff, closeTimeout,
    maxPollWait, leastMaxPollWait, mostMaxPollWait, callbackCheckInterval, pendingRequestPollInterval]

def clientId : String := "kafka-consumer"
def networkLoopName : String := "consumer-network-thread"

end Defaults

/-- Settings of a consumer; without a group it reads only partitions it assigns itself. -/
structure Config where
  clientId : String := Defaults.clientId
  groupId : Option String := none
  enableAutoCommit : Bool := true
  autoCommitInterval : Int64 := Defaults.autoCommitInterval
  defaultApiTimeout : Int64 := Defaults.apiTimeout
  requestTimeout : Int64 := Defaults.requestTimeout
  maxPollWait : Int64 := Defaults.maxPollWait
  retryBackoff : Int64 := Defaults.retryBackoff
  autoOffsetReset : ResetStrategy := .latest
  isolation : IsolationLevel := .readUncommitted
  closeTimeout : Int64 := Defaults.closeTimeout
deriving DecidableEq

namespace Config

/-- Whether the consumer is a member of a group. -/
def hasGroup (c : Config) : Bool := c.groupId.isSome

/-- Offsets are committed automatically only on behalf of a group. -/
def autoCommitEnabled (c : Config) : Bool := c.enableAutoCommit && c.hasGroup

/-- The first setting out of bounds, if any. -/
def problem? (c : Config) : Option InvalidConfig :=
  if c.groupId.any Text.blank then some .blankGroupId
  else if c.enableAutoCommit && c.autoCommitInterval ≤ 0 then
    some (.autoCommitInterval c.autoCommitInterval)
  else if c.defaultApiTimeout < 0 then some (.defaultApiTimeout c.defaultApiTimeout)
  else if c.requestTimeout < Defaults.leastRequestTimeout then
    some (.requestTimeout Defaults.leastRequestTimeout c.requestTimeout)
  else if c.maxPollWait < Defaults.leastMaxPollWait || Defaults.mostMaxPollWait < c.maxPollWait then
    some (.maxPollWait Defaults.leastMaxPollWait Defaults.mostMaxPollWait c.maxPollWait)
  else if c.retryBackoff < 0 then some (.retryBackoff c.retryBackoff)
  else if c.closeTimeout < 0 then some (.closeTimeout c.closeTimeout)
  else none

/-- Accepts a configuration whose settings are all within bounds. -/
def validate (c : Config) : Except Fault Unit :=
  match c.problem? with
  | some p => .error (.invalidConfig p)
  | none => .ok ()

theorem problem?_default : problem? {} = none := by decide +kernel

/-- The text form of a configuration. -/
def text (c : Config) : String :=
  Text.record "ConsumerConfig" [
    ("client_id", Text.quote c.clientId),
    ("group_id", Text.quote (c.groupId.getD "<none>")),
    ("enable_auto_commit", toString c.enableAutoCommit),
    ("auto_commit_interval_ms", toString c.autoCommitInterval),
    ("default_api_timeout_ms", toString c.defaultApiTimeout),
    ("request_timeout_ms", toString c.requestTimeout),
    ("max_poll_wait_ms", toString c.maxPollWait),
    ("retry_backoff_ms", toString c.retryBackoff),
    ("auto_offset_reset", Text.quote c.autoOffsetReset.name),
    ("isolation_level", c.isolation.text),
    ("close_timeout_ms", toString c.closeTimeout)]

end Config

end GroupConsumer
