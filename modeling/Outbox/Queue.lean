/-
# The queue of requests

A request is queued from the time it is decided on until its outcome is known. It is pending until it
is handed out to be sent, and in flight from then on. The queue keeps requests in the order in which
they were enqueued and may be bounded; a full queue takes no request, not even one that would replace
another.

Key definitions: `Queue`, `Queue.enqueue`, `Queue.drainPending`, `Queue.removeInFlight`,
`Queue.retainPending`, `Queue.resolve`, `MarkError`.
-/
import Outbox.InsertionMap.Basic
import Outbox.Request.Response

namespace Outbox

/-- Where a queued request is. -/
inductive RequestState where
  /-- It waits to be handed out. -/
  | pending
  /-- It was handed out, and its outcome is not known. -/
  | inFlight
deriving DecidableEq, Repr

/-- The name of a state. -/
def RequestState.name : RequestState → String
  | pending => "pending"
  | inFlight => "in_flight"

/-- A queued request, apart from its name. -/
structure QueuedRequest where
  /-- What the request carries. -/
  payload : Payload
  /-- Where the request is. -/
  state : RequestState

/-- The queue has no room. -/
structure QueueFull where
  /-- The number of requests that the queue can hold. -/
  capacity : Nat
deriving DecidableEq, Repr

/-- The wording of the error. -/
def QueueFull.message (e : QueueFull) : String :=
  s!"the outgoing request queue is full, it holds {e.capacity} requests"

/-- The queued requests, in the order in which they were enqueued. -/
structure Queue where
  /-- The number of requests that the queue can hold, if it is bounded. -/
  capacity : Option Nat
  /-- The queued requests, by name. -/
  requests : InsertionMap RequestId QueuedRequest

namespace Queue

/-- A queue without requests. -/
def empty (capacity : Option Nat) : Queue := ⟨capacity, ∅⟩

/-- The number of queued requests. -/
def size (q : Queue) : Nat := q.requests.size

/-- The reason why the queue takes no request, if it does not. -/
def full? (q : Queue) : Option QueueFull :=
  match q.capacity with
  | some capacity => if capacity ≤ q.size then some ⟨capacity⟩ else none
  | none => none

/-- Whether the queue takes no request. -/
def isFull (q : Queue) : Bool := q.full?.isSome

/-- Adds a request in the given state, or replaces one of the same name in place. -/
def insert (q : Queue) (r : OutgoingRequest) (state : RequestState) : Except QueueFull Queue :=
  match q.full? with
  | some e => .error e
  | none => .ok { q with requests := q.requests.insert r.id ⟨r.payload, state⟩ }

/-- Adds a request that waits to be handed out. -/
def enqueue (q : Queue) (r : OutgoingRequest) : Except QueueFull Queue := q.insert r .pending

/-- Adds a request that was handed out already. -/
def enqueueInFlight (q : Queue) (r : OutgoingRequest) : Except QueueFull Queue :=
  q.insert r .inFlight

/-- The queued requests and their states, in order. -/
def toList (q : Queue) : List (OutgoingRequest × RequestState) :=
  q.requests.toList.map fun e => (⟨e.1, e.2.payload⟩, e.2.state)

/-- The queued requests in the given state, in order. -/
def inState (q : Queue) (state : RequestState) : List OutgoingRequest :=
  (q.toList.filter fun e => e.2 = state).map Prod.fst

/-- The requests that wait to be handed out, in order. -/
def pending (q : Queue) : List OutgoingRequest := q.inState .pending

/-- The requests that were handed out, in order. -/
def inFlight (q : Queue) : List OutgoingRequest := q.inState .inFlight

/-- Hands out all requests that wait for it, in order. -/
def drainPending (q : Queue) : List OutgoingRequest × Queue :=
  (q.pending, { q with requests := q.requests.mapValues fun _ r => { r with state := .inFlight } })

/-- The request with the given name, and where it is. -/
def get? (q : Queue) (id : RequestId) : Option (OutgoingRequest × RequestState) :=
  (q.requests.get? id).map fun r => (⟨id, r.payload⟩, r.state)

/-- Removes the request with the given name if it is in flight. -/
def removeInFlight (q : Queue) (id : RequestId) : Option (OutgoingRequest × Queue) :=
  match q.get? id with
  | some (r, .inFlight) => some (r, { q with requests := q.requests.erase id })
  | _ => none

/-- Drops the pending requests that fail a test. -/
def retainPending (q : Queue) (keep : Payload → Bool) : Queue :=
  { q with requests := q.requests.filter fun _ r => r.state = .inFlight || keep r.payload }

/-- The queued requests of a kind, in order. -/
def ofKind (q : Queue) (kind : RequestKind) : List OutgoingRequest :=
  (q.toList.map Prod.fst).filter fun r => r.kind = kind

/-- Whether a request of a kind is queued. -/
def containsKind (q : Queue) (kind : RequestKind) : Bool := !(q.ofKind kind).isEmpty

end Queue

/-- Why an outcome was not accepted. -/
inductive MarkError where
  /-- No request of that name is in flight. -/
  | unknownRequest (id : RequestId)
  /-- The response answers another kind of request. -/
  | mismatchedResponse (id : RequestId) (expected got : RequestKind)
deriving DecidableEq, Repr

/-- The wording of an error. -/
def MarkError.message : MarkError → String
  | unknownRequest id => s!"no in-flight request with the request ID {id} exists"
  | mismatchedResponse id expected got =>
    s!"the request {id} is a {expected.label} request but a {got.label} response was given"

/-- Whether an outcome can be that of a request of the given kind. A failure can be that of any. -/
def Outcome.mismatch? (expected : RequestKind) : Outcome → Option RequestKind
  | success response => if response.kind = expected then none else some response.kind
  | failure _ => none

/-- Takes a request whose outcome is known off the queue. It has to be in flight, and a response has
to be one to its kind of request. No record is kept of requests that were resolved: a further outcome of
one is answered as that of a request that never was. -/
def Queue.resolve (q : Queue) (id : RequestId) (outcome : Outcome) :
    Except MarkError (OutgoingRequest × Queue) :=
  match q.removeInFlight id with
  | none => .error (.unknownRequest id)
  | some (r, q) =>
    match outcome.mismatch? r.kind with
    | some got => .error (.mismatchedResponse id r.kind got)
    | none => .ok (r, q)

end Outbox
