/-
Module: CommonRpc.Core.CallMethod
Purpose: `channel::CallMethod` with the owners of its closure. The closure of a call belongs to a `closure_guard`,
  first on the stack of `CallMethod`, then in the capture of the continuation, then on the stack of the
  continuation; whichever guard still holds it when it is destroyed runs it. The thread of the call and the
  thread of the continuation take their steps in any order, and any number of calls are under way at once.
Trusted boundary: `request_async`, `future::then` and the settling of the future are chosen by the environment;
  a future runs its continuation at most once, on a thread without an exception in flight
-/
import CommonRpc.Core.Channel
import CommonRpc.Lib.Transition

namespace CommonRpc

open Lib

/-- `request_controller`, which is the controller and the closure of a call. `Run` deletes it. -/
structure RequestController where
  result : RequestResult := .unknownError
  /-- How many exceptions were in flight where the object was created. -/
  uncaughtExceptions : Nat
  /-- The results with which `Run` was called. -/
  runs : List RequestResult := []
  /-- Whether a result was set on the deleted object. -/
  misused : Bool := false
deriving DecidableEq, Repr

namespace RequestController

def setResult (controller : RequestController) (r : RequestResult) : RequestController :=
  { controller with result := r, misused := controller.misused || !controller.runs.isEmpty }

/-- `Run` on a thread with `uncaught` exceptions in flight. -/
def run (controller : RequestController) (uncaught : Nat) : RequestController :=
  let result := if uncaught > controller.uncaughtExceptions then .unknownError else controller.result
  { controller with result := result, runs := controller.runs ++ [result] }

end RequestController

/-- `closure_guard`: whether `m_closure` points to the closure or is null. -/
structure ClosureGuard where
  closure : Bool
deriving DecidableEq, Repr

namespace ClosureGuard

/-- The constructor from a closure. -/
def ofClosure : ClosureGuard := ⟨true⟩

/-- The move constructor: the new guard, and what is left of the other. -/
def move (other : ClosureGuard) : ClosureGuard × ClosureGuard := (⟨other.closure⟩, ⟨false⟩)

/-- The destructor, on a thread with `uncaught` exceptions in flight. -/
def destroy (guard : ClosureGuard) (uncaught : Nat) (controller : RequestController) : RequestController :=
  if guard.closure then controller.run uncaught else controller

end ClosureGuard

/-- Where the thread of a call stands: before `request_async`, before `then`, before the end, or past it. -/
inductive CallStage where
  | requesting (message : Bytes)
  | chaining
  | returning
  | done
deriving DecidableEq, Repr

/-- What the continuation is given, with what protobuf makes of the payload. -/
structure Reply where
  rc : RequestResult
  buffer : Buffer
  parseFromArray : Bytes → Bool

/-- A call of `CallMethod`. -/
structure MethodCall where
  methodIdx : UInt32
  request : ProtoMessage
  controller : RequestController
  stage : CallStage
  /-- The number the call was given. -/
  reqId : Option UInt64 := none
  /-- What `request_async` was called with. -/
  sent : Option Bytes := none
  /-- The guard on the stack of `CallMethod`. -/
  cg : Option ClosureGuard := none
  /-- The guard in the capture of the continuation, while there is one. -/
  continuation : Option ClosureGuard := none
  /-- Whether the continuation was run. -/
  continued : Bool := false
  /-- What the continuation got from its value. -/
  reply : Option Reply := none
  /-- The bytes the response was parsed from. -/
  response : Option Bytes := none

namespace MethodCall

/-- The end of `CallMethod`, by `return` or by an exception: its guard is destroyed. -/
def leave (call : MethodCall) (cg : ClosureGuard) (throwing : Bool) : MethodCall :=
  let uncaught := call.controller.uncaughtExceptions + throwing.toNat
  { call with stage := .done, cg := none, controller := cg.destroy uncaught call.controller }

/-- `CallMethod` until the call of `request_async`, and the next number of the channel. -/
def callMethod (nextReqId : UInt64) (methodIdx : UInt32) (request : ProtoMessage) (uncaught : Nat) :
    UInt64 × MethodCall :=
  let cg := ClosureGuard.ofClosure
  let call : MethodCall :=
    { methodIdx := methodIdx, request := request, controller := { uncaughtExceptions := uncaught }
      stage := .done }
  if isRequestProtoTooBig request then
    (nextReqId, { call with controller := call.controller.setResult .requestTooBig }.leave cg false)
  else
    let reqId := nextReqId
    let call : MethodCall := { call with reqId := some reqId }
    match createTransferMsgReq reqId methodIdx (some request) with
    | .error _ => (nextReqId + 1, call.leave cg true)
    | .ok message => (nextReqId + 1, { call with stage := .requesting message, cg := some cg })

/-- `request_async` returns a future or throws. -/
def requestAsync (call : MethodCall) (throws : Bool) : Option MethodCall :=
  match call.stage, call.cg with
  | .requesting message, some cg =>
      let call : MethodCall := { call with sent := some message }
      if throws then some (call.leave cg true) else some { call with stage := .chaining }
  | _, _ => none

/-- The lambda takes the guard and is given to `then`, which may throw. -/
def chain (call : MethodCall) (throws : Bool) : Option MethodCall :=
  match call.stage, call.cg with
  | .chaining, some cg =>
      let (captured, cg) := cg.move
      if throws then
        let uncaught := call.controller.uncaughtExceptions + 1
        let call : MethodCall := { call with controller := captured.destroy uncaught call.controller }
        some (call.leave cg true)
      else some { call with stage := .returning, cg := some cg, continuation := some captured }
  | _, _ => none

/-- `CallMethod` returns. -/
def finish (call : MethodCall) : Option MethodCall :=
  match call.stage, call.cg with
  | .returning, some cg => some (call.leave cg false)
  | _, _ => none

/-- The `with` block of the continuation. -/
def withReply (call : MethodCall) (reqId : UInt64) (reply : Reply) : MethodCall :=
  let call : MethodCall := { call with reply := some reply }
  match Channel.readReply reqId reply.parseFromArray reply.rc reply.buffer with
  | .ok (result, response) =>
      { call with controller := call.controller.setResult result, response := response }
  | .error _ => { call with controller := call.controller.setResult .unknownError }

/-- The future runs the continuation. Locking the value gives the reply, or throws (`none`). -/
def resume (call : MethodCall) (reply : Option Reply) : Option MethodCall :=
  match call.continuation, call.continued, call.reqId with
  | some cg, false, some reqId =>
      let (guard, cg) := cg.move
      let call : MethodCall := { call with continued := true, continuation := some cg }
      match reply with
      | some reply =>
          let call := call.withReply reqId reply
          some { call with controller := guard.destroy 0 call.controller }
      | none => some { call with controller := guard.destroy 1 call.controller }
  | _, _, _ => none

/-- The future is over and destroys its continuation, which it has run unless it ended with an exception. The
    thread may have exceptions in flight. -/
def drop (call : MethodCall) (uncaught : Nat) : Option MethodCall :=
  match call.continuation with
  | some cg => some { call with continuation := none, controller := cg.destroy uncaught call.controller }
  | none => none

/-- The thread of the call has left `CallMethod`, and no continuation is left. -/
def isOver (call : MethodCall) : Bool := call.stage = .done && call.continuation.isNone

end MethodCall

/-- The calls of a channel. -/
structure MethodCalls where
  nextReqId : UInt64 := 0
  calls : List MethodCall := []

namespace MethodCalls

inductive Event where
  | call (methodIdx : UInt32) (request : ProtoMessage) (uncaught : Nat)
  | requestAsync (i : Nat) (throws : Bool)
  | chain (i : Nat) (throws : Bool)
  | finish (i : Nat)
  | resume (i : Nat) (reply : Option Reply)
  | drop (i : Nat) (uncaught : Nat)

/-- A step of the call with the given index. -/
def update (s : MethodCalls) (i : Nat) (f : MethodCall → Option MethodCall) : Option MethodCalls := do
  let call ← s.calls[i]?
  let call ← f call
  return { s with calls := s.calls.set i call }

def step (s : MethodCalls) : Event → Option MethodCalls
  | .call methodIdx request uncaught =>
      let (nextReqId, call) := MethodCall.callMethod s.nextReqId methodIdx request uncaught
      some { nextReqId := nextReqId, calls := s.calls ++ [call] }
  | .requestAsync i throws => s.update i (·.requestAsync throws)
  | .chain i throws => s.update i (·.chain throws)
  | .finish i => s.update i (·.finish)
  | .resume i reply => s.update i (·.resume reply)
  | .drop i uncaught => s.update i (·.drop uncaught)

def machine : Machine MethodCalls Event := ⟨step⟩

end MethodCalls

end CommonRpc
