import GroupConsumer.Slot.Basic
import GroupConsumer.Text.Hex
import GroupConsumer.Text.Quoted

/-!
# Tickets

A ticket is handed out for an event that has a result: it names the kind of the event, the slot the
result goes to and the time until which somebody waits for it. Each ticket has a slot of its own, so
the slot tells tickets apart.
-/

namespace GroupConsumer

/-- An event's claim to a result. -/
structure Ticket where
  kind : String
  created : Int64
  deadline : Int64
  slot : SlotId
deriving DecidableEq, Repr

namespace Ticket

/-- The kind and the identity of a ticket; the identity itself is not shown. -/
def describe (t : Ticket) : String := t.kind ++ " event <id>"

/-- Whether a text has the form of an identity: 36 hexadecimal digits and hyphens. -/
def isIdentity (cs : List Char) : Bool :=
  cs.length == 36 && cs.all fun c => c == '-' || (Text.hexValue? c).isSome

/-- A subject as it is shown: an identity at the end of it is hidden. -/
def hideIdentity (subject : String) : String :=
  let cs := subject.toList
  let front := cs.take (cs.length - 36)
  if isIdentity (cs.drop (cs.length - 36)) && " event ".toList.reverse.isPrefixOf front.reverse then
    String.ofList front ++ "<id>"
  else subject

/-- A fault as it is shown: the identity at the end of its subject is hidden. -/
def showFault : Fault → Fault
  | .timeout subject overdue deadline => .timeout (hideIdentity subject) overdue deadline
  | .shutdownForced subject => .shutdownForced (hideIdentity subject)
  | f => f

/-- Whether a ticket is due at `now`. -/
def isDue (t : Ticket) (now : Int64) : Bool := 0 ≤ overdue now t.deadline

/-- The text form of a slot of the given status. -/
def slotText (status : String) : String :=
  Text.record "CompletableFuture" [("status", Text.quote status)]

/-- The text form of a ticket. -/
def text {V N : Type} (t : Ticket) (s : Slots V N) : String :=
  Text.record "EventHandle" [
    ("id", "<id>"),
    ("event_type", Text.quote t.kind),
    ("created_ms", toString t.created),
    ("deadline_ms", toString t.deadline),
    ("future", slotText (s.status t.slot))]

end Ticket

end GroupConsumer
