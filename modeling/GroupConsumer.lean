import GroupConsumer.Client.Api
import GroupConsumer.Proofs.Abandoned
import GroupConsumer.Proofs.Acceptance
import GroupConsumer.Proofs.Acknowledgement
import GroupConsumer.Proofs.Attended
import GroupConsumer.Proofs.Backlog
import GroupConsumer.Proofs.Client.Course
import GroupConsumer.Proofs.Client.Dealings
import GroupConsumer.Proofs.Client.Deeds
import GroupConsumer.Proofs.Client.Moves
import GroupConsumer.Proofs.Client.Orderly
import GroupConsumer.Proofs.Closing
import GroupConsumer.Proofs.Deadlines
import GroupConsumer.Proofs.Departure
import GroupConsumer.Proofs.Epochs
import GroupConsumer.Proofs.Expiry
import GroupConsumer.Proofs.Failure
import GroupConsumer.Proofs.Fetches
import GroupConsumer.Proofs.Finality
import GroupConsumer.Proofs.HandOver
import GroupConsumer.Proofs.Handling
import GroupConsumer.Proofs.Heeded
import GroupConsumer.Proofs.Identity
import GroupConsumer.Proofs.Joining
import GroupConsumer.Proofs.Ledger
import GroupConsumer.Proofs.Matching
import GroupConsumer.Proofs.Member.Agreement
import GroupConsumer.Proofs.Member.Coherent
import GroupConsumer.Proofs.Member.Effect
import GroupConsumer.Proofs.Member.Ending
import GroupConsumer.Proofs.Member.Hails
import GroupConsumer.Proofs.Member.Leaving
import GroupConsumer.Proofs.Member.Move
import GroupConsumer.Proofs.Member.Twins
import GroupConsumer.Proofs.Ownership
import GroupConsumer.Proofs.Pattern.Anchored
import GroupConsumer.Proofs.Pattern.Behind
import GroupConsumer.Proofs.Pattern.Classes
import GroupConsumer.Proofs.Pattern.Escapes
import GroupConsumer.Proofs.Pattern.Items
import GroupConsumer.Proofs.Pattern.Plain
import GroupConsumer.Proofs.Pattern.Reach
import GroupConsumer.Proofs.Pattern.Wrapped
import GroupConsumer.Proofs.Positions
import GroupConsumer.Proofs.Processor.Handles
import GroupConsumer.Proofs.Processor.Refrains
import GroupConsumer.Proofs.Processor.Serves
import GroupConsumer.Proofs.Processor.Twins
import GroupConsumer.Proofs.Punctuality
import GroupConsumer.Proofs.Reaped
import GroupConsumer.Proofs.Reassignment
import GroupConsumer.Proofs.Rejection
import GroupConsumer.Proofs.Resets
import GroupConsumer.Proofs.Resolution
import GroupConsumer.Proofs.Revocation
import GroupConsumer.Proofs.Run.Apart
import GroupConsumer.Proofs.Run.Cause
import GroupConsumer.Proofs.Run.Chronicle
import GroupConsumer.Proofs.Run.Groupless
import GroupConsumer.Proofs.Run.Guarded
import GroupConsumer.Proofs.Run.Makes
import GroupConsumer.Proofs.Run.Patterns
import GroupConsumer.Proofs.Run.Polled
import GroupConsumer.Proofs.Run.Proceeds
import GroupConsumer.Proofs.Run.Ready
import GroupConsumer.Proofs.Run.Requests
import GroupConsumer.Proofs.Run.Secluded
import GroupConsumer.Proofs.Run.Sound
import GroupConsumer.Proofs.Run.Turn
import GroupConsumer.Proofs.Run.Twins
import GroupConsumer.Proofs.Run.Works
import GroupConsumer.Proofs.Session.Carries
import GroupConsumer.Proofs.Session.Converses
import GroupConsumer.Proofs.Session.Expects
import GroupConsumer.Proofs.Session.Grows
import GroupConsumer.Proofs.Session.Proceeds
import GroupConsumer.Proofs.Session.Twins
import GroupConsumer.Proofs.Session.Works
import GroupConsumer.Proofs.Settling
import GroupConsumer.Proofs.SharedLeave
import GroupConsumer.Proofs.Shutdown
import GroupConsumer.Proofs.Slot.Books
import GroupConsumer.Proofs.Slot.Delivery
import GroupConsumer.Proofs.Slot.Grants
import GroupConsumer.Proofs.Slot.Hooks
import GroupConsumer.Proofs.Slot.Keeps
import GroupConsumer.Proofs.Slot.Leads
import GroupConsumer.Proofs.Slot.Race
import GroupConsumer.Proofs.Slot.Reach
import GroupConsumer.Proofs.Slot.Twins
import GroupConsumer.Proofs.Standing
import GroupConsumer.Proofs.Subscription.Assigned
import GroupConsumer.Proofs.Subscription.Awaits
import GroupConsumer.Proofs.Subscription.Forms
import GroupConsumer.Proofs.Subscription.InPlace
import GroupConsumer.Proofs.Subscription.Inherits
import GroupConsumer.Proofs.Subscription.Position
import GroupConsumer.Proofs.Sweep
import GroupConsumer.Proofs.Target
import GroupConsumer.Proofs.Traffic
import GroupConsumer.Proofs.Transitions
import GroupConsumer.Proofs.WholeNames
