/-
Module: CommonRpc.Core.TransferMessage
Purpose: The request and response frames of `transfer-message.cpp`: the encoders with their write
  cursor, the validity predicates and the getters. Every byte access is checked, so an access outside
  the buffer or an unsigned size subtraction that would wrap shows up as an error of its own, apart from
  the exceptions the source throws. A protobuf message is what the encoders see of it: its serialization
  and whether `SerializeToArray` reports success.
Trusted boundary: protobuf writes exactly `ByteSizeLong()` bytes at the start of the given area
-/
import CommonRpc.Core.Types
import CommonRpc.Lib.BigEndian

namespace CommonRpc

open Lib

/-- What a function of `transfer-message.cpp` may do instead of returning. The first is an exception
    of the source; the other two would be accesses or arithmetic gone wrong. -/
inductive MsgError where
  | runtimeError (what : String)
  | outOfBounds
  | sizeWrap
deriving DecidableEq, Repr

def sMessageTypeBytesCount : Nat := 1
def sSerializedProtoMessageSizeBytesCount : Nat := 4
def sMessageNumberBytesCount : Nat := 8
def sMethodIdxBytesCount : Nat := 4
def sResultCodeBytesCount : Nat := 1

def sHeaderBytesCount : Nat := sMessageTypeBytesCount + sSerializedProtoMessageSizeBytesCount

def sReqTrailerBytesCount : Nat := sMessageNumberBytesCount + sMethodIdxBytesCount

def sResTrailerBytesCount : Nat := sMessageNumberBytesCount + sResultCodeBytesCount

/-! ### Big-endian helpers -/

def toUint32ToBigEndian (bytes : Bytes) : UInt32 := ⟨BigEndian.orShift 0 bytes⟩

def toUint64BigEndian (bytes : Bytes) : UInt64 := ⟨BigEndian.orShift 0 bytes⟩

def fromUint32ToBigEndian (number : UInt32) : Bytes := BigEndian.shiftMask 4 number.toBitVec

def fromUint64BigEndian (number : UInt64) : Bytes := BigEndian.shiftMask 8 number.toBitVec

/-! ### Reading a frame -/

/-- Dereference `len` bytes from `data() + offset`. -/
def readBytes (view : Buffer) (offset len : Nat) : Except MsgError Bytes :=
  match view with
  | none => .error .outOfBounds
  | some bytes =>
      if offset + len ≤ bytes.length then .ok ((bytes.drop offset).take len)
      else .error .outOfBounds

/-- `view[pos]`. -/
def readByte (view : Buffer) (pos : Nat) : Except MsgError UInt8 :=
  match view with
  | none => .error .outOfBounds
  | some bytes =>
      match bytes[pos]? with
      | some byte => .ok byte
      | none => .error .outOfBounds

/-- Unsigned `a - b`, which wraps when `b` is larger. -/
def sizeSub (a b : Nat) : Except MsgError Nat :=
  if b ≤ a then .ok (a - b) else .error .sizeWrap

def extractMessageSize (message : Buffer) : Except MsgError UInt32 := do
  let bytes ← readBytes message sMessageTypeBytesCount sSerializedProtoMessageSizeBytesCount
  return toUint32ToBigEndian bytes

/-- The shared shape of the two validity predicates: they differ in the type byte and in the size of
    the trailer. -/
def isBufferValid (type : TransferMsgType) (trailerBytesCount : Nat) (buff : Buffer) :
    Except MsgError Bool := do
  if buff.isNone then return false
  if buff.size < sHeaderBytesCount + trailerBytesCount then return false
  let first ← readByte buff 0
  if TransferMsgType.ofByte first ≠ type then return false
  let messageSize ← extractMessageSize buff
  let afterHeader ← sizeSub buff.size sHeaderBytesCount
  let room ← sizeSub afterHeader trailerBytesCount
  return decide (messageSize.toNat ≤ room)

def isRequestBufferValid (buff : Buffer) : Except MsgError Bool :=
  isBufferValid .req sReqTrailerBytesCount buff

def isResponseBufferValid (buff : Buffer) : Except MsgError Bool :=
  isBufferValid .res sResTrailerBytesCount buff

def getTransferMsgType (message : Buffer) : Except MsgError TransferMsgType := do
  if message.isNone || message.size = 0 then throw (.runtimeError "invalid buffer")
  let first ← readByte message 0
  return TransferMsgType.ofByte first

/-- A `cbuffer_view` into a frame: where it begins and how long it is. -/
structure SubView where
  start : Nat
  size : Nat
deriving DecidableEq, Repr

/-- The bytes a view shows. -/
def SubView.bytes (view : SubView) (message : Buffer) : Except MsgError Bytes :=
  readBytes message view.start view.size

def getSerializedProtoMessage (message : Buffer) : Except MsgError SubView := do
  if message.isNone then throw (.runtimeError "invalid buffer")
  if sHeaderBytesCount > message.size then throw (.runtimeError "invalid buffer")
  let messageSize ← extractMessageSize message
  let room ← sizeSub message.size sHeaderBytesCount
  if messageSize.toNat > room then throw (.runtimeError "invalid buffer")
  return { start := sHeaderBytesCount, size := messageSize.toNat }

/-- The shared shape of the four trailer getters: check the frame, then read `len` bytes `skip` bytes
    into the trailer. -/
def readTrailer (valid : Buffer → Except MsgError Bool) (skip len : Nat) (message : Buffer) :
    Except MsgError Bytes := do
  if !(← valid message) then throw (.runtimeError "invalid buffer")
  let messageSize ← extractMessageSize message
  readBytes message (sHeaderBytesCount + messageSize.toNat + skip) len

def getMsgNumberReq (message : Buffer) : Except MsgError UInt64 :=
  toUint64BigEndian <$> readTrailer isRequestBufferValid 0 sMessageNumberBytesCount message

def getMsgMethodIdxReq (message : Buffer) : Except MsgError UInt32 :=
  toUint32ToBigEndian <$>
    readTrailer isRequestBufferValid sMessageNumberBytesCount sMethodIdxBytesCount message

def getMsgNumberRes (message : Buffer) : Except MsgError UInt64 :=
  toUint64BigEndian <$> readTrailer isResponseBufferValid 0 sMessageNumberBytesCount message

/-- The result byte is dereferenced alone; `*iter` is the only element of a one-byte read. -/
def getMsgResponseCodeRes (message : Buffer) : Except MsgError ResponseResult :=
  (fun bytes => ResponseResult.ofByte (bytes.headD 0)) <$>
    readTrailer isResponseBufferValid sMessageNumberBytesCount sResultCodeBytesCount message

/-! ### Writing a frame -/

/-- A `google::protobuf::Message` as the encoders use it. -/
structure ProtoMessage where
  /-- What `SerializeToArray` writes. -/
  serialization : Bytes
  /-- Whether `SerializeToArray` reports success on a large enough area; it does not, for instance,
      when a required field is unset. -/
  serializes : Bool
deriving DecidableEq, Repr

def ProtoMessage.byteSizeLong (message : ProtoMessage) : Nat := message.serialization.length

/-- `SerializeToArray` into an area of `room` bytes; `none` is the answer `false`. -/
def ProtoMessage.serializeToArray (message : ProtoMessage) (room : Nat) : Option Bytes :=
  if message.serializes ∧ message.serialization.length ≤ room then some message.serialization
  else none

def isRequestProtoTooBig (protoMessage : ProtoMessage) : Bool :=
  protoMessage.byteSizeLong > MaxRequestProtoSize

def isResponseProtoTooBig (protoMessage : ProtoMessage) : Bool :=
  protoMessage.byteSizeLong > MaxResponseProtoSize

/-- The buffer being filled and the cursor `curr_pos`. -/
structure FillState where
  buff : Bytes
  pos : Nat

/-- `buff[pos++] = byte` for each of the bytes. -/
def fillBytes : Bytes → FillState → Except MsgError FillState
  | [], s => .ok s
  | byte :: bytes, s =>
      if s.pos < s.buff.length then
        fillBytes bytes { buff := s.buff.set s.pos byte, pos := s.pos + 1 }
      else .error .outOfBounds

def fillMessageTypeByte (type : TransferMsgType) : FillState → Except MsgError FillState :=
  fillBytes [type.toByte]

def fillSerializedMessageSizeBytes (serializedMessageSize : UInt32) :
    FillState → Except MsgError FillState :=
  fillBytes (fromUint32ToBigEndian serializedMessageSize)

def fillSerializedMessageBytes (message : Option ProtoMessage) (serializedMessageSize : UInt32)
    (s : FillState) : Except MsgError FillState := do
  match message with
  | none => return s
  | some m =>
      match m.serializeToArray (s.buff.length - s.pos) with
      | none => throw (.runtimeError "failed to serialize message")
      | some bytes =>
          let written ← fillBytes bytes s
          return { written with pos := s.pos + serializedMessageSize.toNat }

def fillMessageNumberBytes (messageNumber : UInt64) : FillState → Except MsgError FillState :=
  fillBytes (fromUint64BigEndian messageNumber)

def fillMethodIdxBytes (methodIdx : UInt32) : FillState → Except MsgError FillState :=
  fillBytes (fromUint32ToBigEndian methodIdx)

def fillResponseResultBytes (rc : ResponseResult) : FillState → Except MsgError FillState :=
  fillBytes [rc.toByte]

/-- The shared shape of the two encoders: they differ in the type, the limit, the size of the trailer
    and its last field. The fresh buffer has no defined contents; it is filled with zeros here. -/
def createTransferMsg (type : TransferMsgType) (maxProtoSize trailerBytesCount : Nat)
    (fillLastField : FillState → Except MsgError FillState) (messageNumber : UInt64)
    (message : Option ProtoMessage) : Except MsgError Bytes := do
  let serializedMessageSize := message.elim 0 ProtoMessage.byteSizeLong
  if serializedMessageSize > maxProtoSize then throw (.runtimeError "message is too big")
  let size32 := UInt32.ofNat serializedMessageSize
  let bufSize := UInt32.ofNat sHeaderBytesCount + size32 + UInt32.ofNat trailerBytesCount
  let fresh : FillState := { buff := List.replicate bufSize.toNat 0, pos := 0 }
  let typed ← fillMessageTypeByte type fresh
  let sized ← fillSerializedMessageSizeBytes size32 typed
  let filled ← fillSerializedMessageBytes message size32 sized
  let numbered ← fillMessageNumberBytes messageNumber filled
  let done ← fillLastField numbered
  return done.buff

def createTransferMsgReq (messageNumber : UInt64) (methodIdx : UInt32)
    (message : Option ProtoMessage) : Except MsgError Bytes :=
  createTransferMsg .req MaxRequestProtoSize sReqTrailerBytesCount (fillMethodIdxBytes methodIdx)
    messageNumber message

def createTransferMsgRes (messageNumber : UInt64) (rc : ResponseResult)
    (message : Option ProtoMessage) : Except MsgError Bytes :=
  createTransferMsg .res MaxResponseProtoSize sResTrailerBytesCount (fillResponseResultBytes rc)
    messageNumber message

def createTransferMsgPing : Bytes := [TransferMsgType.ping.toByte]

def createTransferMsgPong : Bytes := [TransferMsgType.pong.toByte]

end CommonRpc
