import GroupConsumer.Member.State
import GroupConsumer.Partition
import GroupConsumer.Subscription.Form

/-!
# What can go wrong

A `Fault` is a cause. `message` is the one place where causes are put into words, and `code` is the
number under which a fault is known to the brokers.
-/

namespace GroupConsumer

/-! Numbers under which the brokers know faults. -/

namespace ErrorCode

def none : Int := 0
def unknownServerError : Int := -1
def unknownTopicOrPartition : Int := 3
def requestTimedOut : Int := 7
def coordinatorNotAvailable : Int := 15
def notCoordinator : Int := 16
def unknownMemberId : Int := 25
def groupAuthorizationFailed : Int := 30
def invalidConfig : Int := 40
def fencedMemberEpoch : Int := 110

/-- All numbers, the absence of a fault first. -/
def all : List Int :=
  [none, unknownServerError, unknownTopicOrPartition, requestTimedOut, coordinatorNotAvailable,
    notCoordinator, unknownMemberId, groupAuthorizationFailed, invalidConfig, fencedMemberEpoch]

end ErrorCode

/-- Why an operation does not fit the state it met. -/
inductive IllegalState where
  | invalidTransition (source target : MemberState) (memberId groupId : String)
  | patternTopicsOf (form : SubscriptionForm)
  | groupAssignmentOf (form : SubscriptionForm)
  | notAssigned (partition : TopicPartition)
  | noResetPolicy (partition : TopicPartition)
  | other (text : String)
deriving DecidableEq, Repr

namespace IllegalState

/-- The wording of a cause. -/
def text : IllegalState → String
  | invalidTransition source target memberId groupId =>
    "Invalid state transition from " ++ source.name ++ " to " ++ target.name ++ " for member "
      ++ memberId ++ " of group " ++ groupId
  | patternTopicsOf form =>
    "Cannot update pattern-matched topics of a " ++ form.name ++ " subscription"
  | groupAssignmentOf form => "Cannot apply a group assignment to a " ++ form.name ++ " subscription"
  | notAssigned tp => "No current assignment for partition " ++ tp.text
  | noResetPolicy tp => "No committed offset and no reset policy for partition " ++ tp.text
  | other text => text

end IllegalState

/-- Why an argument is refused. -/
inductive InvalidArgument where
  | emptyTopicInCollection
  | emptyTopicOf (partition : TopicPartition)
  | emptyTopicName
  | emptyPattern
  | invalidPattern
  | negativeSeek (offset : Int64)
  | negativeTimestamp (partition : TopicPartition) (timestamp : Int64)
  | other (text : String)
deriving DecidableEq, Repr

namespace InvalidArgument

/-- The wording of a cause. -/
def text : InvalidArgument → String
  | emptyTopicInCollection => "Topic collection to subscribe to cannot contain null or empty topic"
  | emptyTopicOf tp => "Topic partitions to assign to cannot have null or empty topic: " ++ tp.text
  | emptyTopicName => "Topic name must not be empty"
  | emptyPattern => "Topic pattern to subscribe to cannot be empty"
  | invalidPattern => "Invalid subscription pattern"
  | negativeSeek offset => "Seek offset must not be negative, got " ++ toString offset
  | negativeTimestamp tp timestamp =>
    "Search timestamp for " ++ tp.text ++ " must not be negative, got " ++ toString timestamp
  | other text => text

end InvalidArgument

/-- Why a configuration is refused. -/
inductive InvalidConfig where
  | blankGroupId
  | autoCommitInterval (ms : Int64)
  | defaultApiTimeout (ms : Int64)
  | requestTimeout (least ms : Int64)
  | maxPollWait (least most ms : Int64)
  | retryBackoff (ms : Int64)
  | closeTimeout (ms : Int64)
  | other (text : String)
deriving DecidableEq, Repr

namespace InvalidConfig

/-- The wording of a cause. -/
def text : InvalidConfig → String
  | blankGroupId => "group_id must not be blank"
  | autoCommitInterval ms => "auto_commit_interval_ms must be positive, got " ++ toString ms
  | defaultApiTimeout ms => "default_api_timeout_ms must not be negative, got " ++ toString ms
  | requestTimeout least ms =>
    "request_timeout_ms must be at least " ++ toString least ++ ", got " ++ toString ms
  | maxPollWait least most ms =>
    "max_poll_wait_ms must be between " ++ toString least ++ " and " ++ toString most ++ ", got "
      ++ toString ms
  | retryBackoff ms => "retry_backoff_ms must not be negative, got " ++ toString ms
  | closeTimeout ms => "close_timeout_ms must not be negative, got " ++ toString ms
  | other text => text

end InvalidConfig

/-- What can go wrong. -/
inductive Fault where
  | timeout (subject : String) (overdue deadline : Int64)
  | shutdownForced (subject : String)
  | subscriptionConflict (current requested : String)
  | illegalState (cause : IllegalState)
  | invalidArgument (cause : InvalidArgument)
  | missingCollaborator (collaborator eventType : String)
  | fenced (memberId : String) (memberEpoch : Int)
  | fatal (text : String)
  | protocol (code : Int) (text : String)
  | invalidConfig (cause : InvalidConfig)
  | closed
  | internal (text : String)
deriving DecidableEq, Repr

namespace Fault

/-- The expiry of a subject, noticed at `now`. -/
def expired (subject : String) (now deadline : Int64) : Fault :=
  timeout subject (overdue now deadline) deadline

/-- The name of the kind of a fault. -/
def kind : Fault → String
  | timeout .. => "Timeout"
  | shutdownForced _ => "ShutdownForced"
  | subscriptionConflict .. => "SubscriptionConflict"
  | illegalState _ => "IllegalState"
  | invalidArgument _ => "InvalidArgument"
  | missingCollaborator .. => "MissingCollaborator"
  | fenced .. => "Fenced"
  | fatal _ => "Fatal"
  | protocol .. => "Protocol"
  | invalidConfig _ => "InvalidConfig"
  | closed => "Closed"
  | internal _ => "Internal"

/-- The faults of the kinds that a text alone describes, by the name of the kind. -/
def ofText? (kind text : String) : Option Fault :=
  [illegalState (.other text), invalidArgument (.other text), fatal text, invalidConfig (.other text),
    closed, internal text].find? (·.kind = kind)

/-- Whether a deadline has passed. -/
def isTimeout : Fault → Bool
  | timeout .. => true
  | _ => false

/-- The number under which the brokers know a fault. -/
def code : Fault → Int
  | timeout .. => ErrorCode.requestTimedOut
  | fenced .. => ErrorCode.fencedMemberEpoch
  | invalidConfig _ => ErrorCode.invalidConfig
  | protocol code _ => code
  | _ => ErrorCode.unknownServerError

/-- The wording of a fault. -/
def message : Fault → String
  | timeout subject overdue deadline =>
    subject ++ " was " ++ toString overdue ++ " ms past its expiration of " ++ toString deadline
  | shutdownForced subject => subject ++ " could not be completed before the consumer closed"
  | subscriptionConflict current requested =>
    "Subscription to topics, partitions and pattern are mutually exclusive: cannot change a "
      ++ current ++ " subscription to " ++ requested
  | illegalState cause => "Illegal state: " ++ cause.text
  | invalidArgument cause => "Invalid argument: " ++ cause.text
  | missingCollaborator collaborator eventType =>
    eventType ++ " requires the " ++ collaborator ++ ", which is not configured for this consumer"
  | fenced memberId memberEpoch =>
    "Member " ++ memberId ++ " was fenced at epoch " ++ toString memberEpoch
  | fatal text => "Fatal error: " ++ text
  | protocol code text => "Kafka error code " ++ toString code ++ ": " ++ text
  | invalidConfig cause => "Invalid configuration: " ++ cause.text
  | closed => "The consumer is closed"
  | internal text => "Internal error: " ++ text

end Fault

end GroupConsumer
