import GroupConsumer.Fault

/-!
# Requests and responses

What is handed to the network and what comes back, and the numbers of the kinds of request.
-/

namespace GroupConsumer

/-! Numbers of the kinds of request. -/

namespace ApiKey

def fetch : Int := 1
def listOffsets : Int := 2
def metadata : Int := 3
def offsetCommit : Int := 8
def offsetFetch : Int := 9
def findCoordinator : Int := 10
def consumerGroupHeartbeat : Int := 68

/-- All kinds of request. -/
def all : List Int :=
  [fetch, listOffsets, metadata, offsetCommit, offsetFetch, findCoordinator, consumerGroupHeartbeat]

end ApiKey

/-- A request that waits to be sent; without a destination any node will do. -/
structure UnsentRequest where
  apiKey : Int
  destination : Option Int
  body : List UInt8
  created : Int64
deriving DecidableEq, Repr

/-- What a collaborator wants of the loop: to be polled again in time, and requests to be sent. -/
structure PollResult where
  wait : Int64 := Int64.maxValue
  requests : List UnsentRequest := []
deriving DecidableEq, Repr

/-- A response of a node. -/
structure ClientResponse where
  apiKey : Int
  destination : Option Int
  errorCode : Int
  body : List UInt8
  received : Int64
deriving DecidableEq, Repr

/-- The fault that a response reports. -/
def ClientResponse.fault? (r : ClientResponse) : Option Fault :=
  if r.errorCode = ErrorCode.none then none
  else some (.protocol r.errorCode ("api key " ++ toString r.apiKey ++ " failed"))

theorem ClientResponse.fault?_eq_none_iff {r : ClientResponse} :
    r.fault? = none ↔ r.errorCode = ErrorCode.none := by
  simp [fault?]

end GroupConsumer
