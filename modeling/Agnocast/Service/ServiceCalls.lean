import Agnocast.Kmod.Basic
import Agnocast.Lib.Bag
import Agnocast.Lib.Transition

/-!
# Services — requests and responses

The clients and the servers of one service. A client numbers its requests when it borrows
them, enters the call in its map under a mutex, and publishes the request on the topic of
the service. Every server receives it and publishes its response on the client's own topic,
with the number of the request. The client takes the call out of the map under the mutex
and fulfils its promise after that.

* `ServiceCalls` — the clients' maps, the messages on the topics, and what every thread is at.
* `serviceCalls` — the transition system. A topic delivers what was published in any order, as
  often as it likes, or not at all.
* `CallsMatched` — what is asked of a run.

A basic server is a deferred one that borrows and sends its response in one go. The
introspection events and the payloads play no part; sequence numbers do not run over.
-/

namespace Agnocast

/-! ## The state -/

/-- A request with its `RequestMeta`; `client` stands for the `client_gid`. The code has no
`message`: it counts the requests borrowed before. -/
structure Request where
  message : Nat
  client : Nat
  seqno : Int
  responseTopicName : Name
  deriving DecidableEq, Repr

/-- A response with its `ResponseMeta` and the topic of the publisher that lent it. The code has
no `answers`: it is the request that the response was borrowed for. -/
structure Response where
  topicName : Name
  seqno : Int
  answers : Request
  deriving DecidableEq, Repr

/-- The service. A `ResponseCallInfo`, the promise of a call, goes by the request of the call. -/
structure ServiceCalls where
  nextSequenceNumber : Nat → Int
  messages : Nat
  /-- Borrowed and not sent yet. -/
  borrowed : List Request
  /-- `seqno2_response_call_info_` of each client. -/
  responseCallInfo : Nat → Int → Option Request
  /-- Entered in the map and not published yet. -/
  registered : List Request
  /-- Published on the request topic. -/
  requests : List Request
  /-- What the callbacks of a server have. -/
  handling : List (Nat × Request)
  /-- Borrowed by a server and not sent yet. -/
  responding : List (Nat × Response)
  /-- Published on the response topics. -/
  responses : List Response
  /-- Taken out of the map, with the promise not fulfilled yet. -/
  fulfilling : List (Request × Response)

/-- What a thread of a client or a server can do next. -/
inductive ServiceInput
  | borrowLoanedRequest (client : Nat)
  /-- `async_send_request`, up to the end of the critical section. -/
  | register (request : Request)
  | publish (request : Request)
  /-- A server's subscriber callback is invoked. -/
  | serve (server : Nat) (request : Request)
  | borrowLoanedResponse (server : Nat) (request : Request)
  | sendResponse (server : Nat) (request : Request) (response : Response)
  /-- The client's subscriber callback, up to the end of the critical section. -/
  | deliver (client : Nat) (response : Response)
  /-- The promise is fulfilled, and the callback called. -/
  | fulfil (request : Request) (response : Response)
  deriving DecidableEq, Repr

/-- What a step shows. -/
inductive ServiceReply
  | borrowed (request : Request)
  | sent (request : Request)
  | responded (response : Response)
  /-- "Invalid message to publish": the server's process ends. -/
  | invalidMessage
  /-- The call of the request left the map. -/
  | answered (request : Request) (response : Response)
  /-- "Agnocast internal implementation error: bad entry id". -/
  | badEntryId
  | resolved (request : Request) (response : Response)
  deriving DecidableEq, Repr

/-! ## The steps -/

-- `response_topic_name_` of each client.
variable (responseTopicName : Nat → Name)

namespace ServiceCalls

def borrowLoanedRequest (x : ServiceCalls) (client : Nat) : Option ServiceReply × ServiceCalls :=
  let request : Request :=
    ⟨x.messages, client, x.nextSequenceNumber client, responseTopicName client⟩
  (some (.borrowed request),
    { x with
      nextSequenceNumber := Function.update x.nextSequenceNumber client
        (x.nextSequenceNumber client + 1)
      messages := x.messages + 1
      borrowed := request :: x.borrowed })

/-- `try_emplace`: a call that is there already stays. -/
def tryEmplace (x : ServiceCalls) (request : Request) : Nat → Int → Option Request :=
  if (x.responseCallInfo request.client request.seqno).isSome then x.responseCallInfo
  else
    Function.update x.responseCallInfo request.client
      (Function.update (x.responseCallInfo request.client) request.seqno (some request))

/-- `send_request_impl`, up to the publish. -/
def register (x : ServiceCalls) (request : Request) : Option ServiceReply × ServiceCalls :=
  (some (.sent request),
    { x with
      borrowed := x.borrowed.erase request
      responseCallInfo := x.tryEmplace request
      registered := request :: x.registered })

/-- `borrow_loaned_response`. -/
def borrowLoanedResponse (x : ServiceCalls) (server : Nat) (request : Request) : ServiceCalls :=
  { x with
    responding := (server, ⟨request.responseTopicName, request.seqno, request⟩) :: x.responding }

/-- `send_response`: the publisher is the one of the request's topic, and refuses a response
that another one has lent. -/
def sendResponse (x : ServiceCalls) (server : Nat) (request : Request) (response : Response) :
    Option ServiceReply × ServiceCalls :=
  -- `publish` ends the process of the server
  if response.topicName ≠ request.responseTopicName then
    (some .invalidMessage,
      { x with
        handling := x.handling.filter fun h => h.1 ≠ server
        responding := x.responding.filter fun r => r.1 ≠ server })
  else
    (some (.responded response),
      { x with
        handling := x.handling.erase (server, request)
        responding := x.responding.erase (server, response)
        responses := response :: x.responses })

/-- The client finds the call of a response. -/
def deliver (x : ServiceCalls) (client : Nat) (response : Response) :
    Option ServiceReply × ServiceCalls :=
  match x.responseCallInfo client response.seqno with
  | none => (some .badEntryId, x)
  | some info =>
    (some (.answered info response),
      { x with
        responseCallInfo := Function.update x.responseCallInfo client
          (Function.update (x.responseCallInfo client) response.seqno none)
        fulfilling := (info, response) :: x.fulfilling })

/-- One step; what a thread has not got it cannot use. -/
def step (x : ServiceCalls) : ServiceInput → Option ServiceReply × ServiceCalls
  | .borrowLoanedRequest client => x.borrowLoanedRequest responseTopicName client
  | .register request => if request ∈ x.borrowed then x.register request else (none, x)
  | .publish request =>
    (none,
      if request ∈ x.registered then
        { x with
          registered := x.registered.erase request
          requests := request :: x.requests }
      else x)
  | .serve server request =>
    (none,
      if request ∈ x.requests then { x with handling := (server, request) :: x.handling } else x)
  | .borrowLoanedResponse server request =>
    (none, if (server, request) ∈ x.handling then x.borrowLoanedResponse server request else x)
  | .sendResponse server request response =>
    if (server, request) ∈ x.handling ∧ (server, response) ∈ x.responding then
      x.sendResponse server request response
    else (none, x)
  | .deliver client response =>
    -- the client subscribes to its own topic
    if response ∈ x.responses ∧ response.topicName = responseTopicName client then
      x.deliver client response
    else (none, x)
  | .fulfil request response =>
    if (request, response) ∈ x.fulfilling then
      (some (.resolved request response),
        { x with fulfilling := x.fulfilling.erase (request, response) })
    else (none, x)

end ServiceCalls

/-- A service with any number of clients, none of which has borrowed a request. -/
def serviceCalls : Transition.System ServiceCalls ServiceInput (Option ServiceReply) where
  init x := (∀ c, x.nextSequenceNumber c = 0) ∧ (∀ c q, x.responseCallInfo c q = none) ∧
    x.messages = 0 ∧ x.borrowed = [] ∧ x.registered = [] ∧ x.requests = [] ∧ x.handling = [] ∧
    x.responding = [] ∧ x.responses = [] ∧ x.fulfilling = []
  step := ServiceCalls.step responseTopicName

abbrev ServiceEvent := Transition.Event ServiceCalls ServiceInput (Option ServiceReply)

/-! ## What is said about runs -/

namespace ServiceReply

def borrowed? : ServiceReply → Option Request
  | .borrowed request => some request
  | _ => none

def sent? : ServiceReply → Option Request
  | .sent request => some request
  | _ => none

def responded? : ServiceReply → Option Response
  | .responded response => some response
  | _ => none

def answered? : ServiceReply → Option (Request × Response)
  | .answered request response => some (request, response)
  | _ => none

def resolved? : ServiceReply → Option (Request × Response)
  | .resolved request response => some (request, response)
  | _ => none

end ServiceReply

/-- The requests that were borrowed. -/
def borrowedRequests (tr : List ServiceEvent) : List Request :=
  Transition.shown (fun r => r.bind ServiceReply.borrowed?) tr

/-- The requests that were sent. -/
def sentRequests (tr : List ServiceEvent) : List Request :=
  Transition.shown (fun r => r.bind ServiceReply.sent?) tr

/-- The responses that servers produced. -/
def producedResponses (tr : List ServiceEvent) : List Response :=
  Transition.shown (fun r => r.bind ServiceReply.responded?) tr

/-- The calls that were answered: their response has arrived. -/
def answeredCalls (tr : List ServiceEvent) : List (Request × Response) :=
  Transition.shown (fun r => r.bind ServiceReply.answered?) tr

/-- The calls that were resolved: their promise was fulfilled. -/
def resolvedCalls (tr : List ServiceEvent) : List (Request × Response) :=
  Transition.shown (fun r => r.bind ServiceReply.resolved?) tr

/-- What holds after every run: a call is resolved at most once, with a response that a server
produced for the very request of the call; the numbers of a client's requests differ; the map
of a client holds its requests that were sent and not answered; and a response without a call
in the map changes nothing. -/
structure CallsMatched (tr : List ServiceEvent) (x : ServiceCalls) : Prop where
  once : ((resolvedCalls tr).map Prod.fst).Nodup
  matched : ∀ call response, (call, response) ∈ resolvedCalls tr →
    response.answers = call ∧ response ∈ producedResponses tr ∧ call ∈ sentRequests tr
  distinct : ∀ c, (((borrowedRequests tr).filter fun r => r.client = c).map Request.seqno).Nodup
  pending : ∀ c seqno call, x.responseCallInfo c seqno = some call ↔
    call.client = c ∧ call.seqno = seqno ∧ call ∈ sentRequests tr ∧
      call ∉ (answeredCalls tr).map Prod.fst
  unmatched : ∀ ev ∈ tr, ∀ c response, ev.input = .deliver c response →
    ev.pre.responseCallInfo c response.seqno = none →
      (ev.pre.step responseTopicName ev.input).2 = ev.pre

end Agnocast
