/-
Module: CommonRpc.Core.Types
Purpose: The result codes, the limits and the buffers shared by the pipes and the RPC layer.
  `response_result` and `transfer_msg_type` are one-byte enumerations that are also produced by casting
  a received byte, so each has a constructor for the byte values without a name; the casts are then
  bijections with the byte.
Trusted boundary: none
-/

namespace CommonRpc

/-- The bytes an allocated `cl::buffer` owns. -/
abbrev Bytes := List UInt8

/-- A `cl::buffer`, or a view of a whole one; `none` is the null buffer of the default constructor
    and of a moved-from object. -/
abbrev Buffer := Option Bytes

/-- `buffer::size()`; the null buffer has size zero. -/
def Buffer.size : Buffer → Nat
  | none => 0
  | some bytes => bytes.length

@[simp] theorem Buffer.size_some (bytes : Bytes) : Buffer.size (some bytes) = bytes.length := rfl

/-- 1 MiB plus header and trailer. -/
def MaxTransferMessageSize : Nat := 1024 * 1024 + 100

def MaxRequestProtoSize : Nat := 1024 * 1024

def MaxResponseProtoSize : Nat := 1024 * 1024

/-- `pipe_op_res`: how one read or write on a pipe endpoint ended. -/
inductive PipeOpRes where
  | success
  | canceled
  | failed
  | timeout
deriving DecidableEq, Repr, Inhabited

def PipeOpRes.isSuccess (r : PipeOpRes) : Bool := r = .success

def PipeOpRes.isFail (r : PipeOpRes) : Bool := !r.isSuccess

/-- `pipe_wait_res`: how waiting for a connected pipe endpoint ended. -/
inductive PipeWaitRes where
  | success
  | canceled
  | timeout
  | failed
deriving DecidableEq, Repr, Inhabited

def PipeWaitRes.isSuccess (r : PipeWaitRes) : Bool := r = .success

def PipeWaitRes.isFail (r : PipeWaitRes) : Bool := !r.isSuccess

/-- `request_result`: how an outgoing RPC request ended. -/
inductive RequestResult where
  | ok
  | unknownError
  | timeout
  | canceled
  | failed
  | sendTimeout
  | sendCanceled
  | sendFailed
  | requestTooBig
  | requestNotProcessed
  | invalidResponse
  | responseParseError
  | noConnection
deriving DecidableEq, Repr, Inhabited

def RequestResult.isSuccess (r : RequestResult) : Bool := r = .ok

/-- `response_result`. A frame may carry any byte here; the values past `invalid_request` have no
    name in the source and are kept apart by their byte. -/
inductive ResponseResult where
  | ok
  | unknownError
  | canceled
  | requestParseError
  | responseTooBig
  | notImplemented
  | invalidRequest
  | unnamed (byte : UInt8) (large : 7 ≤ byte.toNat)
deriving DecidableEq, Repr

namespace ResponseResult

/-- `static_cast<std::byte>(rc)`. -/
def toByte : ResponseResult → UInt8
  | .ok => 0
  | .unknownError => 1
  | .canceled => 2
  | .requestParseError => 3
  | .responseTooBig => 4
  | .notImplemented => 5
  | .invalidRequest => 6
  | .unnamed byte _ => byte

/-- `static_cast<response_result>(byte)`. -/
def ofByte (byte : UInt8) : ResponseResult :=
  if large : 7 ≤ byte.toNat then .unnamed byte large
  else match byte.toNat with
    | 0 => .ok
    | 1 => .unknownError
    | 2 => .canceled
    | 3 => .requestParseError
    | 4 => .responseTooBig
    | 5 => .notImplemented
    | _ => .invalidRequest

def isSuccess (rc : ResponseResult) : Bool := rc = .ok

def isFail (rc : ResponseResult) : Bool := !rc.isSuccess

/-- Casting a code to its byte and back loses nothing. -/
theorem ofByte_toByte (rc : ResponseResult) : ofByte rc.toByte = rc := by
  cases rc with
  | unnamed byte large => simp [toByte, ofByte, large]
  | _ => rfl

/-- Every byte is the byte of the code it is cast to. -/
theorem toByte_ofByte (byte : UInt8) : (ofByte byte).toByte = byte := by
  unfold ofByte
  split
  next => rfl
  next large =>
      apply UInt8.toNat_inj.mp
      split
      all_goals
        simp only [toByte, UInt8.reduceToNat]
        grind

end ResponseResult

/-- `transfer_msg_type`. The first byte of a received message may have any value; those past `pong`
    have no name in the source. -/
inductive TransferMsgType where
  | req
  | res
  | ping
  | pong
  | unnamed (byte : UInt8) (large : 4 ≤ byte.toNat)
deriving DecidableEq, Repr

namespace TransferMsgType

/-- `static_cast<std::byte>(type)`. -/
def toByte : TransferMsgType → UInt8
  | .req => 0
  | .res => 1
  | .ping => 2
  | .pong => 3
  | .unnamed byte _ => byte

/-- `static_cast<transfer_msg_type>(byte)`. -/
def ofByte (byte : UInt8) : TransferMsgType :=
  if large : 4 ≤ byte.toNat then .unnamed byte large
  else match byte.toNat with
    | 0 => .req
    | 1 => .res
    | 2 => .ping
    | _ => .pong

theorem ofByte_toByte (type : TransferMsgType) : ofByte type.toByte = type := by
  cases type with
  | unnamed byte large => simp [toByte, ofByte, large]
  | _ => rfl

theorem toByte_ofByte (byte : UInt8) : (ofByte byte).toByte = byte := by
  unfold ofByte
  split
  next => rfl
  next large =>
      apply UInt8.toNat_inj.mp
      split
      all_goals
        simp only [toByte, UInt8.reduceToNat]
        grind

end TransferMsgType

end CommonRpc
