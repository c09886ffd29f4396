import BenchmarkHost.Library.Fifo
import BenchmarkHost.Library.Pipeline
import BenchmarkHost.Messages

/-! `FunctionRpcClient`, the test worker.

The constructor subscribes to inbound requests. `RpcStream` opens the call and
starts its reader, adds the outbound subscription, writes `StartStream`, and
awaits first that write and then the reader. Reader, handler and outbound
subscriber run on threads of their own, so any of them may act between two of
these steps. A process that has crashed takes no further step.
-/

set_option autoImplicit false

namespace BenchmarkHost

open Library

/-- How far `RpcStream` has got. -/
inductive RpcStreamPhase where
  | constructed
  /-- The call is open and its reader has been started. -/
  | opened
  | subscribed
  /-- The write of `StartStream` has not returned yet. -/
  | starting
  | reading
  /-- The call is disposed: the reader has ended or the first write has raised. -/
  | closed
  deriving DecidableEq, Repr

/-- The two `Where` filters between the hops of the client's subscription. -/
def selectsRequest (workerId : String) (event : RpcEvent) : Bool :=
  event.workerId == workerId && event.messageType == .invocationRequest

structure FunctionRpcClient where
  workerId : String
  phase : RpcStreamPhase
  inboundWorkerEvents : Pipeline (selectsRequest workerId)
  /-- The events behind the outbound subscription, once there is one. -/
  outboundEvents : Option (List RpcEvent)
  /-- A `WriteAsync` of the outbound subscriber has not returned yet. -/
  responding : Bool

inductive ClientAction where
  | openCall
  | subscribe
  | writeStart (succeeds : Bool)
  | startWritten
  | receive (message : StreamingMessage)
  | observe
  | handle
  | respond (succeeds : Bool)
  | responded
  | close
  deriving DecidableEq, Repr

inductive ClientObservation where
  | received (message : StreamingMessage)
  | handled (invocationId : String)
  | raised
  /-- An event on the client's own event manager, and whether it was heard. -/
  | published (event : RpcEvent) (heard : Bool)
  | wrote (message : StreamingMessage)
  | failed (message : StreamingMessage)
  /-- A `WriteAsync` called while another one is pending. It raises. -/
  | overlapped (message : StreamingMessage)
  deriving DecidableEq, Repr

namespace FunctionRpcClient

def create (workerId : String) : FunctionRpcClient :=
  ⟨workerId, .constructed, .empty, none, false⟩

def openCall (client : FunctionRpcClient) : Option (FunctionRpcClient × List ClientObservation) :=
  match client.phase with
  | .constructed => some ({ client with phase := .opened }, [])
  | _ => none

-- `Add` to the dictionary of subscriptions, which is empty until then.
def subscribe (client : FunctionRpcClient) : Option (FunctionRpcClient × List ClientObservation) :=
  match client.phase, client.outboundEvents with
  | .opened, none => some ({ client with phase := .subscribed, outboundEvents := some [] }, [])
  | _, _ => none

def startMessage (client : FunctionRpcClient) : StreamingMessage :=
  { content := .startStream ⟨client.workerId⟩ }

/-- `RpcStream` writes `StartStream`. An exception leaves the `using` block. -/
def writeStart (client : FunctionRpcClient) (succeeds : Bool) :
    Option (FunctionRpcClient × List ClientObservation) :=
  match client.phase with
  | .subscribed =>
    if client.responding then
      some ({ client with phase := .closed }, [.overlapped client.startMessage])
    else if succeeds then some ({ client with phase := .starting }, [.wrote client.startMessage])
    else some ({ client with phase := .closed }, [.failed client.startMessage])
  | _ => none

def startWritten (client : FunctionRpcClient) :
    Option (FunctionRpcClient × List ClientObservation) :=
  match client.phase with
  | .starting => some ({ client with phase := .reading }, [])
  | _ => none

def receive (client : FunctionRpcClient) (message : StreamingMessage) :
    Option (FunctionRpcClient × List ClientObservation) :=
  match client.phase with
  | .constructed | .closed => none
  | .opened | .subscribed | .starting | .reading =>
    some ({ client with
        inboundWorkerEvents := client.inboundWorkerEvents.onNext ⟨client.workerId, message⟩ },
      [.received message])

def observe (client : FunctionRpcClient) : Option (FunctionRpcClient × List ClientObservation) :=
  match client.inboundWorkerEvents.observe with
  | none => none
  | some pipeline => some ({ client with inboundWorkerEvents := pipeline }, [])

/-- The event `InvocationRequest` publishes for a request. -/
def responseTo (client : FunctionRpcClient) (request : InvocationRequest) : RpcEvent :=
  let invocationResponse : InvocationResponse :=
    { invocationId := request.invocationId, result := "Success" }
  ⟨client.workerId, { content := .invocationResponse invocationResponse }⟩

-- Without a subscription the event reaches nobody.
def publish (client : FunctionRpcClient) (event : RpcEvent) : FunctionRpcClient × Bool :=
  match client.outboundEvents with
  | none => (client, false)
  | some queue =>
    if event.workerId = client.workerId then
      ({ client with outboundEvents := some (queue ++ [event]) }, true)
    else (client, false)

/-- The inbound subscriber: `InvocationRequest` on the next request. -/
def handle (client : FunctionRpcClient) : Option (FunctionRpcClient × List ClientObservation) :=
  match client.inboundWorkerEvents.take with
  | none => none
  | some (event, pipeline) =>
    let client := { client with inboundWorkerEvents := pipeline }
    match event.message.invocationRequest with
    | none => some (client, [.raised])
    | some request =>
      let response := client.responseTo request
      let (client, heard) := client.publish response
      some (client, [.handled request.invocationId, .published response heard])

/-- The outbound subscriber takes its next event and calls `WriteAsync`, which
blocks it until `responded`. Nothing catches what the call raises. -/
def respond (client : FunctionRpcClient) (succeeds : Bool) :
    Option (FunctionRpcClient × List ClientObservation) :=
  match client.outboundEvents with
  | none | some [] => none
  | some (event :: rest) =>
    if client.responding then none
    else
      let client := { client with outboundEvents := some rest }
      match client.phase with
      | .starting => some (client, [.overlapped event.message])
      | .closed => some (client, [.failed event.message])
      | _ =>
        if succeeds then some ({ client with responding := true }, [.wrote event.message])
        else some (client, [.failed event.message])

def responded (client : FunctionRpcClient) : Option (FunctionRpcClient × List ClientObservation) :=
  if client.responding then some ({ client with responding := false }, []) else none

/-- The reader has ended, so `RpcStream` returns or raises. -/
def close (client : FunctionRpcClient) : Option (FunctionRpcClient × List ClientObservation) :=
  match client.phase with
  | .reading => some ({ client with phase := .closed }, [])
  | _ => none

def step (client : FunctionRpcClient) :
    ClientAction → Option (FunctionRpcClient × List ClientObservation)
  | .openCall => client.openCall
  | .subscribe => client.subscribe
  | .writeStart succeeds => client.writeStart succeeds
  | .startWritten => client.startWritten
  | .receive message => client.receive message
  | .observe => client.observe
  | .handle => client.handle
  | .respond succeeds => client.respond succeeds
  | .responded => client.responded
  | .close => client.close

end FunctionRpcClient

def clientMachine (workerId : String) : Machine FunctionRpcClient ClientAction ClientObservation :=
  ⟨.create workerId, FunctionRpcClient.step⟩

end BenchmarkHost
