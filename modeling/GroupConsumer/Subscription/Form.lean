/-!
# The forms a subscription can take

A consumer reads topics it names, topics that match a pattern, or partitions it picks itself, and
never two of these at once.
-/

namespace GroupConsumer

/-- How the partitions of a consumer are chosen. -/
inductive SubscriptionForm where
  | none
  | autoTopics
  | autoPattern
  | userAssigned
deriving DecidableEq, Repr

namespace SubscriptionForm

/-- The name of a form. -/
def name : SubscriptionForm → String
  | none => "NONE"
  | autoTopics => "AUTO_TOPICS"
  | autoPattern => "AUTO_PATTERN"
  | userAssigned => "USER_ASSIGNED"

/-- Whether the group assigns the partitions. -/
def isAuto : SubscriptionForm → Bool
  | autoTopics | autoPattern => true
  | none | userAssigned => false

end SubscriptionForm

end GroupConsumer
