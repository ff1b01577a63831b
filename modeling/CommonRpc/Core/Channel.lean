/-
Module: CommonRpc.Core.Channel
Purpose: `channel::CallMethod`: the numbering of requests, the request frame, and the continuation that turns
  what the connection reports into the result of the call. Allocating a number and handing the frame to the
  connection are two steps, since concurrent calls may pass each other between them. The closure of a call is
  run right after its result is set, so a call that is over is a `Report`.
Trusted boundary: protobuf parsing is a parameter
-/
import CommonRpc.Core.TransferMessage

namespace CommonRpc

/-- A call that was given a number. -/
structure Call where
  reqId : UInt64
  methodIdx : UInt32
  payload : Bytes
deriving DecidableEq, Repr

/-- A call that is over: its number if it was given one, the result on its controller, and the bytes its
    response was parsed from. -/
structure Report where
  reqId : Option UInt64
  result : RequestResult
  response : Option Bytes
deriving DecidableEq, Repr

/-- `channel`, without its connection. -/
structure Channel where
  nextReqId : UInt64 := 0
  calls : List Call := []
  /-- The calls that have their frame and have not called `request_async` yet. -/
  pending : List (UInt64 × Bytes) := []
  reports : List Report := []
deriving DecidableEq, Repr

namespace Channel

/-- A call that ended with an exception. -/
def onException (ch : Channel) (reqId : UInt64) : Channel :=
  { ch with reports := ch.reports ++ [⟨some reqId, .unknownError, none⟩] }

/-- `CallMethod` until the call of `request_async`. An exception leaves the result at its initial value. -/
def callMethod (ch : Channel) (methodIdx : UInt32) (request : ProtoMessage) : Channel :=
  if isRequestProtoTooBig request then
    { ch with reports := ch.reports ++ [⟨none, .requestTooBig, none⟩] }
  else
    let reqId := ch.nextReqId
    let ch : Channel := { ch with
      nextReqId := ch.nextReqId + 1
      calls := ch.calls ++ [⟨reqId, methodIdx, request.serialization⟩] }
    match createTransferMsgReq reqId methodIdx (some request) with
    | .error _ => ch.onException reqId
    | .ok message => { ch with pending := ch.pending ++ [(reqId, message)] }

/-- The body of the `try` block of the continuation. -/
def readReply (reqId : UInt64) (parseFromArray : Bytes → Bool) (rc : RequestResult) (buffer : Buffer) :
    Except MsgError (RequestResult × Option Bytes) := do
  if rc.isSuccess then
    if !(← isResponseBufferValid buffer) then return (.invalidResponse, none)
    let type ← getTransferMsgType buffer
    if type ≠ .res then
      throw (.runtimeError ("unexpected transfer_msg_type: " ++ toString type.toByte.toNat))
    let number ← getMsgNumberRes buffer
    if number ≠ reqId then throw (.runtimeError ("unexpected message number: " ++ toString number.toNat))
    let resCode ← getMsgResponseCodeRes buffer
    if resCode.isFail then return (.requestNotProcessed, none)
    let serializedResponse ← getSerializedProtoMessage buffer
    let bytes ← serializedResponse.bytes buffer
    if !parseFromArray bytes then return (.responseParseError, none)
    return (.ok, some bytes)
  else return (rc, none)

/-- The continuation of `request_async`. -/
def onReply (ch : Channel) (reqId : UInt64) (parseFromArray : Bytes → Bool) (rc : RequestResult)
    (buffer : Buffer) : Channel :=
  match readReply reqId parseFromArray rc buffer with
  | .ok (result, response) => { ch with reports := ch.reports ++ [⟨some reqId, result, response⟩] }
  | .error _ => ch.onException reqId

end Channel

end CommonRpc
