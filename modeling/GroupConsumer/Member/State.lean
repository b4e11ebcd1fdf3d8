/-!
# The states of a group member

The nine states a member goes through and the states each of them may be entered from.
-/

namespace GroupConsumer

/-- Where a member stands with respect to its group. -/
inductive MemberState where
  /-- Not part of the group. -/
  | unsubscribed
  /-- Joining with epoch 0, waiting for a first assignment. -/
  | joining
  /-- Applying a target assignment. -/
  | reconciling
  /-- Assignment applied, waiting for the heartbeat that acknowledges it. -/
  | acknowledging
  /-- Assignment acknowledged. -/
  | stable
  /-- Epoch rejected by the coordinator; partitions are being released. -/
  | fenced
  /-- Leave requested; revocation callback running. -/
  | prepareLeaving
  /-- Waiting for the leave heartbeat to be sent. -/
  | leaving
  /-- Unrecoverable error. -/
  | fatal
deriving DecidableEq, Repr

namespace MemberState

/-- The name of a state. -/
def name : MemberState → String
  | unsubscribed => "UNSUBSCRIBED"
  | joining => "JOINING"
  | reconciling => "RECONCILING"
  | acknowledging => "ACKNOWLEDGING"
  | stable => "STABLE"
  | fenced => "FENCED"
  | prepareLeaving => "PREPARE_LEAVING"
  | leaving => "LEAVING"
  | fatal => "FATAL"

/-- The name of a state in the text form of a member. -/
def text : MemberState → String
  | unsubscribed => "Unsubscribed"
  | joining => "Joining"
  | reconciling => "Reconciling"
  | acknowledging => "Acknowledging"
  | stable => "Stable"
  | fenced => "Fenced"
  | prepareLeaving => "PrepareLeaving"
  | leaving => "Leaving"
  | fatal => "Fatal"

/-- All states. -/
def all : List MemberState :=
  [unsubscribed, joining, reconciling, acknowledging, stable, fenced, prepareLeaving, leaving, fatal]

/-- The states from which a state may be entered. -/
def previous : MemberState → List MemberState
  | unsubscribed => [prepareLeaving, leaving, fenced, fatal]
  | joining => [unsubscribed, fenced]
  | reconciling => [joining, stable, acknowledging, reconciling]
  | acknowledging => [joining, reconciling]
  | stable => [joining, acknowledging, reconciling]
  | fenced => [joining, stable, reconciling, acknowledging, prepareLeaving, leaving]
  | prepareLeaving => [joining, reconciling, acknowledging, stable]
  | leaving => [prepareLeaving]
  | fatal => [unsubscribed, joining, reconciling, acknowledging, stable, fenced, prepareLeaving, leaving]

/-- Whether `next` may be entered from `s`. -/
def canEnter (s next : MemberState) : Bool := next.previous.contains s

/-- Whether the member is on its way out of the group. -/
def isLeaving : MemberState → Bool
  | prepareLeaving | leaving => true
  | _ => false

/-- The state with a name. -/
def ofName? (s : String) : Option MemberState := all.find? (·.name = s)

theorem mem_all (s : MemberState) : s ∈ all := by cases s <;> decide

end MemberState

end GroupConsumer
