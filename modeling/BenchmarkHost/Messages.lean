import Mathlib.Data.List.Basic

/-! The messages of the `FunctionRpc` service and the events that carry them
inside a process. -/

set_option autoImplicit false

namespace BenchmarkHost

structure StartStream where
  workerId : String
  deriving DecidableEq, Repr

structure InvocationRequest where
  invocationId : String
  functionId : String
  deriving DecidableEq, Repr

structure InvocationResponse where
  invocationId : String
  result : String
  deriving DecidableEq, Repr

/-- The `content` oneof: at most one of its cases is set. -/
inductive Content where
  | none
  | startStream : StartStream → Content
  | invocationRequest : InvocationRequest → Content
  | invocationResponse : InvocationResponse → Content
  deriving DecidableEq, Repr

inductive ContentOneofCase where
  | none | startStream | invocationRequest | invocationResponse
  deriving DecidableEq, Repr

structure StreamingMessage where
  requestId : String := ""
  content : Content := .none
  deriving DecidableEq, Repr

namespace StreamingMessage

def contentCase (message : StreamingMessage) : ContentOneofCase :=
  match message.content with
  | .none => .none
  | .startStream _ => .startStream
  | .invocationRequest _ => .invocationRequest
  | .invocationResponse _ => .invocationResponse

-- The getter of a case that is not set returns null.
def startStream (message : StreamingMessage) : Option StartStream :=
  match message.content with
  | .startStream content => some content
  | _ => Option.none

def invocationRequest (message : StreamingMessage) : Option InvocationRequest :=
  match message.content with
  | .invocationRequest content => some content
  | _ => Option.none

def invocationResponse (message : StreamingMessage) : Option InvocationResponse :=
  match message.content with
  | .invocationResponse content => some content
  | _ => Option.none

theorem contentCase_eq_invocationRequest {message : StreamingMessage} :
    message.contentCase = .invocationRequest ↔
      ∃ request, message.invocationRequest = some request := by
  rcases message with ⟨_, _ | _ | _ | _⟩ <;> simp [contentCase, invocationRequest]

theorem contentCase_eq_invocationResponse {message : StreamingMessage} :
    message.contentCase = .invocationResponse ↔
      ∃ response, message.invocationResponse = some response := by
  rcases message with ⟨_, _ | _ | _ | _⟩ <;> simp [contentCase, invocationResponse]

def requestedId (message : StreamingMessage) : Option String :=
  message.invocationRequest.map (·.invocationId)

def respondedId (message : StreamingMessage) : Option String :=
  message.invocationResponse.map (·.invocationId)

end StreamingMessage

/-- An event of one direction; `InboundEvent` and `OutboundEvent` add nothing
to it but their type. -/
structure RpcEvent where
  workerId : String
  message : StreamingMessage
  deriving DecidableEq, Repr

def RpcEvent.messageType (event : RpcEvent) : ContentOneofCase := event.message.contentCase

end BenchmarkHost
