/-
Module: CommonRpc.Core.Service
Purpose: `service::process_request_async`: the task it posts, the invocation of a service method and the closure
  that sends the answer. A method may run its closure at any later time, so invocations are kept until then.
Trusted boundary: protobuf parsing and the application's methods are parameters; a closure is run once
-/
import CommonRpc.Core.TransferMessage

namespace CommonRpc

/-- What the library asks of a generated service. -/
structure ServiceDescriptor where
  methodCount : UInt32
  /-- Whether bytes parse as the input type of a method. -/
  parses : UInt32 → Bytes → Bool
  /-- A new or cleared message of the output type of a method. -/
  empty : UInt32 → ProtoMessage

/-- A call of a service method, with the number of its request. -/
structure Invocation where
  number : UInt64
  methodIdx : UInt32
  payload : Bytes
deriving DecidableEq, Repr

/-- A service method that ran its closure, with the response it had filled in. -/
structure Completion where
  invocation : Invocation
  rc : ResponseResult
  response : ProtoMessage
deriving DecidableEq, Repr

/-- What a service method has done when it runs its closure: the response it filled in, and whether the closure
    runs while an exception unwinds the stack. -/
structure Handled where
  response : ProtoMessage
  unwinding : Bool := false
deriving DecidableEq, Repr

/-- What the posted task does with a request. -/
inductive Processed where
  | answered (response : Bytes)
  | invoked (invocation : Invocation)
deriving DecidableEq, Repr

/-- `service`. -/
structure Service where
  gservice : Option ServiceDescriptor
  /-- The invocations whose closure has not run. -/
  running : List Invocation := []
  invocations : List Invocation := []
  completions : List Completion := []
  /-- The futures that were settled and whose continuation has not run. -/
  responses : List Bytes := []

namespace Service

/-- The task that `process_request_async` posts, until it calls the service method. -/
def processRequest (gservice : Option ServiceDescriptor) (reqMsg : Buffer) : Except MsgError Processed := do
  if !(← isRequestBufferValid reqMsg) then
    return .answered (← createTransferMsgRes (-1) .invalidRequest none)
  let messageNumber ← getMsgNumberReq reqMsg
  let methodIdx ← getMsgMethodIdxReq reqMsg
  let serializedReqMessage ← getSerializedProtoMessage reqMsg
  match gservice with
  | none => return .answered (← createTransferMsgRes messageNumber .notImplemented none)
  | some gservice =>
      if methodIdx ≥ gservice.methodCount then
        return .answered (← createTransferMsgRes messageNumber .notImplemented none)
      let bytes ← serializedReqMessage.bytes reqMsg
      if !gservice.parses methodIdx bytes then
        return .answered
          (← createTransferMsgRes messageNumber .requestParseError (some (gservice.empty methodIdx)))
      return .invoked ⟨messageNumber, methodIdx, bytes⟩

/-- The code with which `response_controller::Run` calls back. -/
def closureResult (unwinding : Bool) : ResponseResult := if unwinding then .unknownError else .ok

/-- The callback of the closure. -/
def runClosure (gservice : ServiceDescriptor) (invocation : Invocation) (rc : ResponseResult)
    (res : ProtoMessage) : Except MsgError Bytes :=
  if isResponseProtoTooBig res then
    createTransferMsgRes invocation.number .responseTooBig (some (gservice.empty invocation.methodIdx))
  else createTransferMsgRes invocation.number rc (some res)

/-- The value `process_request_async` sets its promise to, for methods that run their closure once. An error
    is an exception on the way: in the posted task, or in the closure, which swallows it. The promise is then
    dropped without a value. -/
def processRequestAsync (gservice : Option ServiceDescriptor) (handler : Invocation → Handled)
    (reqMsg : Buffer) : Except MsgError Bytes := do
  match ← processRequest gservice reqMsg, gservice with
  | .answered response, _ => return response
  | .invoked invocation, some gservice =>
      runClosure gservice invocation (closureResult (handler invocation).unwinding)
        (handler invocation).response
  -- a method call through a null pointer
  | .invoked _, none => throw .outOfBounds

/-- A promise is set, unless the frame could not be made. -/
def settle (s : Service) : Except MsgError Bytes → Service
  | .error _ => s
  | .ok response => { s with responses := s.responses ++ [response] }

/-- The posted task runs. -/
def process (s : Service) (reqMsg : Buffer) : Service :=
  match processRequest s.gservice reqMsg with
  | .error _ => s
  | .ok (.answered response) => s.settle (.ok response)
  | .ok (.invoked invocation) =>
      { s with running := s.running ++ [invocation], invocations := s.invocations ++ [invocation] }

/-- A service method runs its closure. -/
def complete (s : Service) (i : Nat) (unwinding : Bool) (res : ProtoMessage) : Option Service :=
  match s.running[i]?, s.gservice with
  | some invocation, some gservice =>
      let rc := closureResult unwinding
      let s : Service := { s with
        running := s.running.eraseIdx i
        completions := s.completions ++ [⟨invocation, rc, res⟩] }
      some (s.settle (runClosure gservice invocation rc res))
  | _, _ => none

end Service

end CommonRpc
