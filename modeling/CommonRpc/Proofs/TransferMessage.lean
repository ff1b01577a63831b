/-
Module: CommonRpc.Proofs.TransferMessage
Purpose: The encoders write the documented layout and the readers take it apart again. `frame` is that
  layout as one byte string. The write side shows that the cursor walks through the buffer field by field
  and ends at the frame; the read side computes every predicate and getter on a frame. The round trip of
  both message kinds is assembled from the two sides.
Trusted boundary: none
-/
import CommonRpc.Core.TransferMessage

namespace CommonRpc

open Lib

/-! ### Big-endian helpers -/

theorem fromUint32ToBigEndian_eq (number : UInt32) :
    fromUint32ToBigEndian number = BigEndian.toBytes 4 number.toNat :=
  BigEndian.shiftMask_eq_toBytes (by decide) 4 number.toBitVec

theorem fromUint64BigEndian_eq (number : UInt64) :
    fromUint64BigEndian number = BigEndian.toBytes 8 number.toNat :=
  BigEndian.shiftMask_eq_toBytes (by decide) 8 number.toBitVec

@[simp] theorem length_fromUint32ToBigEndian (number : UInt32) :
    (fromUint32ToBigEndian number).length = 4 := by
  rw [fromUint32ToBigEndian_eq, BigEndian.length_toBytes]

@[simp] theorem length_fromUint64BigEndian (number : UInt64) :
    (fromUint64BigEndian number).length = 8 := by
  rw [fromUint64BigEndian_eq, BigEndian.length_toBytes]

/-- The 32-bit read loop undoes the 32-bit write loop. -/
theorem toUint32_fromUint32 (number : UInt32) :
    toUint32ToBigEndian (fromUint32ToBigEndian number) = number := by
  have hlen : (fromUint32ToBigEndian number).length * 8 ≤ 32 := by
    rw [length_fromUint32ToBigEndian]
  apply UInt32.toNat_inj.mp
  calc (toUint32ToBigEndian (fromUint32ToBigEndian number)).toNat
      = BigEndian.ofBytes (fromUint32ToBigEndian number) := BigEndian.orShift_toNat hlen
    _ = number.toNat := by
        rw [fromUint32ToBigEndian_eq]
        exact BigEndian.ofBytes_toBytes_of_lt number.toNat_lt

/-- The 64-bit read loop undoes the 64-bit write loop. -/
theorem toUint64_fromUint64 (number : UInt64) :
    toUint64BigEndian (fromUint64BigEndian number) = number := by
  have hlen : (fromUint64BigEndian number).length * 8 ≤ 64 := by
    rw [length_fromUint64BigEndian]
  apply UInt64.toNat_inj.mp
  calc (toUint64BigEndian (fromUint64BigEndian number)).toNat
      = BigEndian.ofBytes (fromUint64BigEndian number) := BigEndian.orShift_toNat hlen
    _ = number.toNat := by
        rw [fromUint64BigEndian_eq]
        exact BigEndian.ofBytes_toBytes_of_lt number.toNat_lt

/-! ### The layout -/

/-- The documented layout: type byte, payload size, payload, message number, last field. -/
def frame (type : TransferMsgType) (payload : Bytes) (number : UInt64) (last : Bytes) : Bytes :=
  [type.toByte] ++ fromUint32ToBigEndian (UInt32.ofNat payload.length) ++ payload ++
    fromUint64BigEndian number ++ last

/-- The payload a message contributes; a null message contributes none. -/
def payloadOf (message : Option ProtoMessage) : Bytes :=
  message.elim [] ProtoMessage.serialization

theorem length_frame (type : TransferMsgType) (payload : Bytes) (number : UInt64) (last : Bytes) :
    (frame type payload number last).length =
      sHeaderBytesCount + payload.length + sMessageNumberBytesCount + last.length := by
  simp only [frame, List.length_append, List.length_singleton, length_fromUint32ToBigEndian,
    length_fromUint64BigEndian, sHeaderBytesCount, sMessageTypeBytesCount,
    sSerializedProtoMessageSizeBytesCount, sMessageNumberBytesCount]

/-! ### The write side -/

/-- Filling at the end of what is already written overwrites the next bytes and moves the cursor
    behind them. -/
theorem fillBytes_append (bytes written rest : Bytes) (fits : bytes.length ≤ rest.length) :
    fillBytes bytes { buff := written ++ rest, pos := written.length } =
      .ok { buff := written ++ bytes ++ rest.drop bytes.length,
            pos := (written ++ bytes).length } := by
  induction bytes generalizing written rest with
  | nil => simp [fillBytes]
  | cons byte bytes ih =>
      cases rest with
      | nil => simp at fits
      | cons old rest =>
          have hroom : written.length < (written ++ old :: rest).length := by simp
          have hset : (written ++ old :: rest).set written.length byte =
              (written ++ [byte]) ++ rest := by simp
          have hpos : written.length + 1 = (written ++ [byte]).length := by simp
          have htail := ih (written ++ [byte]) rest (by simpa using fits)
          rw [fillBytes, if_pos hroom, hset, hpos, htail]
          simp

/-- The payload step writes the serialization and moves the cursor by its size. -/
theorem fillSerializedMessageBytes_append (message : Option ProtoMessage) (written rest : Bytes)
    (serializes : ∀ m, message = some m → m.serializes = true)
    (small : (payloadOf message).length < 2 ^ 32) (fits : (payloadOf message).length ≤ rest.length) :
    fillSerializedMessageBytes message (UInt32.ofNat (payloadOf message).length)
        { buff := written ++ rest, pos := written.length } =
      .ok { buff := written ++ payloadOf message ++ rest.drop (payloadOf message).length,
            pos := (written ++ payloadOf message).length } := by
  cases message with
  | none =>
      simp [fillSerializedMessageBytes, payloadOf, pure, Except.pure]
  | some m =>
      have hser : m.serializes = true := serializes m rfl
      change m.serialization.length < 2 ^ 32 at small
      change m.serialization.length ≤ rest.length at fits
      have harea : m.serializeToArray ((written ++ rest).length - written.length) =
          some m.serialization := by
        simp [ProtoMessage.serializeToArray, hser, fits]
      have hsize : (UInt32.ofNat m.serialization.length).toNat = m.serialization.length :=
        UInt32.toNat_ofNat_of_lt' small
      have hfill := fillBytes_append m.serialization written rest fits
      simp only [fillSerializedMessageBytes, payloadOf, Option.elim_some, harea, hfill, bind,
        Except.bind, pure, Except.pure, hsize]
      rw [List.length_append]

/-- The generic encoder produces the layout, whatever last field it is given. -/
theorem createTransferMsg_eq_frame (type : TransferMsgType) (number : UInt64) (last : Bytes)
    (message : Option ProtoMessage) {maxProtoSize trailerBytesCount : Nat}
    (serializes : ∀ m, message = some m → m.serializes = true)
    (small : (payloadOf message).length ≤ maxProtoSize) (limit : maxProtoSize ≤ 2 ^ 31)
    (trailer : trailerBytesCount = sMessageNumberBytesCount + last.length)
    (short : last.length ≤ 4) :
    createTransferMsg type maxProtoSize trailerBytesCount (fillBytes last) number message =
      .ok (frame type (payloadOf message) number last) := by
  have hsize : message.elim 0 ProtoMessage.byteSizeLong = (payloadOf message).length := by
    cases message <;> rfl
  have hbuf : (UInt32.ofNat sHeaderBytesCount + UInt32.ofNat (payloadOf message).length +
      UInt32.ofNat trailerBytesCount).toNat =
        1 + (4 + ((payloadOf message).length + (8 + last.length))) := by
    subst trailer
    simp only [UInt32.toNat_add, UInt32.toNat_ofNat', sHeaderBytesCount, sMessageTypeBytesCount,
      sSerializedProtoMessageSizeBytesCount, sMessageNumberBytesCount]
    omega
  -- the zero-filled buffer is cut into the five fields, which are overwritten one after the other
  have htype := fillBytes_append [type.toByte] [] (List.replicate
    (1 + (4 + ((payloadOf message).length + (8 + last.length)))) 0) (by simp)
  have hlength := fillBytes_append
    (fromUint32ToBigEndian (UInt32.ofNat (payloadOf message).length)) [type.toByte]
    (List.replicate (4 + ((payloadOf message).length + (8 + last.length))) 0) (by simp)
  have hpayload := fillSerializedMessageBytes_append message
    ([type.toByte] ++ fromUint32ToBigEndian (UInt32.ofNat (payloadOf message).length))
    (List.replicate ((payloadOf message).length + (8 + last.length)) 0) serializes (by omega)
    (by simp)
  have hnumber := fillBytes_append (fromUint64BigEndian number)
    ([type.toByte] ++ fromUint32ToBigEndian (UInt32.ofNat (payloadOf message).length) ++
      payloadOf message) (List.replicate (8 + last.length) 0) (by simp)
  have hlast := fillBytes_append last
    ([type.toByte] ++ fromUint32ToBigEndian (UInt32.ofNat (payloadOf message).length) ++
      payloadOf message ++ fromUint64BigEndian number) (List.replicate last.length 0) (by simp)
  simp only [List.drop_replicate, length_fromUint32ToBigEndian, length_fromUint64BigEndian,
    List.length_singleton, Nat.add_sub_cancel_left, Nat.sub_self, List.replicate_zero,
    List.append_nil, List.nil_append, List.length_nil] at htype hlength hpayload hnumber hlast
  have hnot : ¬ maxProtoSize < (payloadOf message).length := by omega
  simp only [createTransferMsg, hsize, if_neg hnot, gt_iff_lt, hbuf, fillMessageTypeByte,
    fillSerializedMessageSizeBytes, fillMessageNumberBytes, htype, hlength, hpayload, hnumber, hlast,
    bind, Except.bind, pure, Except.pure, frame]

/-- A serialization over the limit is refused before anything is written. -/
theorem createTransferMsg_too_big (type : TransferMsgType) (number : UInt64)
    (message : Option ProtoMessage) {maxProtoSize trailerBytesCount : Nat}
    (fillLastField : FillState → Except MsgError FillState)
    (big : maxProtoSize < (payloadOf message).length) :
    createTransferMsg type maxProtoSize trailerBytesCount fillLastField number message =
      .error (.runtimeError "message is too big") := by
  have hsize : message.elim 0 ProtoMessage.byteSizeLong = (payloadOf message).length := by
    cases message <;> rfl
  simp only [createTransferMsg, hsize, gt_iff_lt, if_pos big]
  rfl

/-- A chain of fallible steps succeeds only through its first step. -/
theorem bind_eq_ok {ε α β : Type} {x : Except ε α} {f : α → Except ε β} {b : β}
    (ok : (x >>= f) = .ok b) : ∃ a, x = .ok a ∧ f a = .ok b := by
  cases x with
  | error e => cases ok
  | ok a => exact ⟨a, rfl, ok⟩

theorem fillSerializedMessageBytes_serializes {message : Option ProtoMessage} {size : UInt32}
    {s s' : FillState} (filled : fillSerializedMessageBytes message size s = .ok s') :
    ∀ m, message = some m → m.serializes = true := by
  rintro m rfl
  by_contra fails
  have refused : m.serializeToArray (s.buff.length - s.pos) = none := by
    rw [ProtoMessage.serializeToArray, if_neg fun accepted => fails accepted.1]
  simp only [fillSerializedMessageBytes, refused] at filled
  cases filled

/-- What the encoder accepts: it refuses a message that does not serialize or is too big. -/
theorem createTransferMsg_accepts {type : TransferMsgType} {maxProtoSize trailerBytesCount : Nat}
    {fillLastField : FillState → Except MsgError FillState} {number : UInt64}
    {message : Option ProtoMessage} {bytes : Bytes}
    (made : createTransferMsg type maxProtoSize trailerBytesCount fillLastField number message = .ok bytes) :
    (∀ m, message = some m → m.serializes = true) ∧ (payloadOf message).length ≤ maxProtoSize := by
  constructor
  · unfold createTransferMsg at made
    simp only at made
    split at made
    · cases made
    · obtain ⟨_, -, made⟩ := bind_eq_ok made
      obtain ⟨_, -, made⟩ := bind_eq_ok made
      obtain ⟨_, filled, -⟩ := bind_eq_ok made
      exact fillSerializedMessageBytes_serializes filled
  · by_contra big
    rw [createTransferMsg_too_big type number message fillLastField (Nat.lt_of_not_le big)] at made
    cases made

/-! ### The read side -/

theorem readBytes_middle (before middle after : Bytes) :
    readBytes (some (before ++ middle ++ after)) before.length middle.length = .ok middle := by
  have hfits : before.length + middle.length ≤ (before ++ middle ++ after).length := by simp
  have hslice : ((before ++ middle ++ after).drop before.length).take middle.length = middle := by
    simp
  simp only [readBytes, if_pos hfits, hslice]

theorem readByte_frame (type : TransferMsgType) (payload : Bytes) (number : UInt64) (last : Bytes) :
    readByte (some (frame type payload number last)) 0 = .ok type.toByte := by
  simp [readByte, frame]

/-- The size field of a frame is the size of its payload. -/
theorem extractMessageSize_frame (type : TransferMsgType) (payload : Bytes) (number : UInt64)
    (last : Bytes) :
    extractMessageSize (some (frame type payload number last)) =
      .ok (UInt32.ofNat payload.length) := by
  have hread : readBytes (some (frame type payload number last)) sMessageTypeBytesCount
      sSerializedProtoMessageSizeBytesCount =
        .ok (fromUint32ToBigEndian (UInt32.ofNat payload.length)) := by
    have hmid := readBytes_middle [type.toByte]
      (fromUint32ToBigEndian (UInt32.ofNat payload.length))
      (payload ++ (fromUint64BigEndian number ++ last))
    simpa [frame, sMessageTypeBytesCount, sSerializedProtoMessageSizeBytesCount,
      List.append_assoc] using hmid
  rw [extractMessageSize, hread]
  simp only [bind, Except.bind, pure, Except.pure, toUint32_fromUint32]

/-- A frame passes the check for its own type, also when more bytes than its trailer come last. -/
theorem isBufferValid_frame_long (type : TransferMsgType) (payload : Bytes) (number : UInt64)
    (last : Bytes) {trailerBytesCount : Nat} (small : payload.length < 2 ^ 32)
    (trailer : trailerBytesCount ≤ sMessageNumberBytesCount + last.length) :
    isBufferValid type trailerBytesCount (some (frame type payload number last)) = .ok true := by
  have hlen := length_frame type payload number last
  have hlong : ¬ (frame type payload number last).length < sHeaderBytesCount + trailerBytesCount := by
    omega
  have hheader : sizeSub (frame type payload number last).length sHeaderBytesCount =
      .ok (payload.length + (sMessageNumberBytesCount + last.length)) := by
    rw [sizeSub, if_pos (by omega)]
    congr 1
    omega
  have htrailer : sizeSub (payload.length + (sMessageNumberBytesCount + last.length)) trailerBytesCount =
      .ok (payload.length + (sMessageNumberBytesCount + last.length) - trailerBytesCount) := by
    rw [sizeSub, if_pos (by omega)]
  have hfits : payload.length ≤
      payload.length + (sMessageNumberBytesCount + last.length) - trailerBytesCount := by
    omega
  simp only [isBufferValid, Option.isNone_some, Bool.false_eq_true, if_false, Buffer.size_some,
    if_neg hlong, readByte_frame, TransferMsgType.ofByte_toByte, ne_eq, not_true, hheader, htrailer,
    extractMessageSize_frame, bind, Except.bind, pure, Except.pure,
    UInt32.toNat_ofNat_of_lt' small, hfits, decide_true]

/-- A frame passes the check for its own type and trailer size. -/
theorem isBufferValid_frame (type : TransferMsgType) (payload : Bytes) (number : UInt64)
    (last : Bytes) {trailerBytesCount : Nat} (small : payload.length < 2 ^ 32)
    (trailer : trailerBytesCount = sMessageNumberBytesCount + last.length) :
    isBufferValid type trailerBytesCount (some (frame type payload number last)) = .ok true :=
  isBufferValid_frame_long type payload number last small trailer.le

/-- A frame fails the check for every other type. -/
theorem isBufferValid_other_type {type other : TransferMsgType} (differ : type ≠ other)
    (payload : Bytes) (number : UInt64) (last : Bytes) (trailerBytesCount : Nat) :
    isBufferValid other trailerBytesCount (some (frame type payload number last)) = .ok false := by
  simp only [isBufferValid, Option.isNone_some, Bool.false_eq_true, readByte_frame,
    TransferMsgType.ofByte_toByte, ne_eq, differ, not_false_eq_true, if_true, bind, Except.bind, pure,
    Except.pure, ite_self]

theorem getTransferMsgType_frame (type : TransferMsgType) (payload : Bytes) (number : UInt64)
    (last : Bytes) :
    getTransferMsgType (some (frame type payload number last)) = .ok type := by
  have hlen := length_frame type payload number last
  have hpos : ¬ (frame type payload number last).length = 0 := by
    rw [hlen, sMessageNumberBytesCount]
    omega
  simp only [getTransferMsgType, Option.isNone_some, Buffer.size_some, hpos, decide_false,
    Bool.or_self, Bool.false_eq_true, if_false, readByte_frame, TransferMsgType.ofByte_toByte, bind,
    Except.bind, pure, Except.pure]

/-- The payload view of an accepted buffer, and where it stands. -/
theorem getSerializedProtoMessage_view (type : TransferMsgType) {payload : Bytes} (number : UInt64)
    (last : Bytes) (small : payload.length < 2 ^ 32) :
    getSerializedProtoMessage (some (frame type payload number last)) =
      .ok { start := sHeaderBytesCount, size := payload.length } := by
  have hlen := length_frame type payload number last
  have hlong : ¬ sHeaderBytesCount > (frame type payload number last).length := by omega
  have hheader : sizeSub (frame type payload number last).length sHeaderBytesCount =
      .ok (payload.length + sMessageNumberBytesCount + last.length) := by
    rw [sizeSub, if_pos (by omega)]
    congr 1
    omega
  have hfits : ¬ payload.length > payload.length + sMessageNumberBytesCount + last.length := by
    omega
  simp only [getSerializedProtoMessage, Option.isNone_some, Bool.false_eq_true, if_false,
    Buffer.size_some, if_neg hlong, extractMessageSize_frame, hheader, if_neg hfits,
    UInt32.toNat_ofNat_of_lt' small, bind, Except.bind, pure, Except.pure]

/-- The payload view of a frame shows exactly its payload. -/
theorem getSerializedProtoMessage_frame (type : TransferMsgType) (payload : Bytes) (number : UInt64)
    (last : Bytes) (small : payload.length < 2 ^ 32) :
    ∃ view, getSerializedProtoMessage (some (frame type payload number last)) = .ok view ∧
      view.bytes (some (frame type payload number last)) = .ok payload := by
  refine ⟨_, getSerializedProtoMessage_view type number last small, ?_⟩
  have hmid := readBytes_middle
    ([type.toByte] ++ fromUint32ToBigEndian (UInt32.ofNat payload.length)) payload
    (fromUint64BigEndian number ++ last)
  simpa [SubView.bytes, frame, sHeaderBytesCount, sMessageTypeBytesCount,
    sSerializedProtoMessageSizeBytesCount, List.append_assoc] using hmid

/-- Reading `field` at the place where it stands in the trailer of a valid frame. -/
theorem readTrailer_frame (type : TransferMsgType) {payload : Bytes} (number : UInt64)
    {last : Bytes} (before field after : Bytes) {valid : Buffer → Except MsgError Bool}
    (small : payload.length < 2 ^ 32)
    (isValid : valid (some (frame type payload number last)) = .ok true)
    (place : fromUint64BigEndian number ++ last = before ++ field ++ after) :
    readTrailer valid before.length field.length (some (frame type payload number last)) =
      .ok field := by
  have hread : readBytes (some (frame type payload number last))
      (sHeaderBytesCount + payload.length + before.length) field.length = .ok field := by
    have hmid := readBytes_middle
      ([type.toByte] ++ fromUint32ToBigEndian (UInt32.ofNat payload.length) ++ payload ++ before)
      field after
    have hbytes : frame type payload number last =
        [type.toByte] ++ fromUint32ToBigEndian (UInt32.ofNat payload.length) ++ payload ++ before ++
          field ++ after := by
      simp only [frame, List.append_assoc] at place ⊢
      rw [place]
    have hoffset : ([type.toByte] ++ fromUint32ToBigEndian (UInt32.ofNat payload.length) ++ payload ++
        before).length = sHeaderBytesCount + payload.length + before.length := by
      simp [sHeaderBytesCount, sMessageTypeBytesCount, sSerializedProtoMessageSizeBytesCount]
      omega
    rwa [hoffset, ← hbytes] at hmid
  simp only [readTrailer, isValid, extractMessageSize_frame, UInt32.toNat_ofNat_of_lt' small, bind,
    Except.bind, Bool.not_true, Bool.false_eq_true, if_false, hread]

/-! ### Requests and responses -/

/-- A request frame: the last field is the method index. -/
def reqFrame (number : UInt64) (methodIdx : UInt32) (payload : Bytes) : Bytes :=
  frame .req payload number (fromUint32ToBigEndian methodIdx)

/-- A response frame: the last field is the result byte. -/
def resFrame (number : UInt64) (rc : ResponseResult) (payload : Bytes) : Bytes :=
  frame .res payload number [rc.toByte]

theorem createTransferMsgReq_eq (number : UInt64) (methodIdx : UInt32)
    {message : Option ProtoMessage} (serializes : ∀ m, message = some m → m.serializes = true)
    (small : (payloadOf message).length ≤ MaxRequestProtoSize) :
    createTransferMsgReq number methodIdx message =
      .ok (reqFrame number methodIdx (payloadOf message)) :=
  createTransferMsg_eq_frame .req number (fromUint32ToBigEndian methodIdx) message serializes small
    (by decide) (by simp [sReqTrailerBytesCount, sMethodIdxBytesCount]) (by simp)

theorem createTransferMsgRes_eq (number : UInt64) (rc : ResponseResult)
    {message : Option ProtoMessage} (serializes : ∀ m, message = some m → m.serializes = true)
    (small : (payloadOf message).length ≤ MaxResponseProtoSize) :
    createTransferMsgRes number rc message = .ok (resFrame number rc (payloadOf message)) :=
  createTransferMsg_eq_frame .res number [rc.toByte] message serializes small (by decide)
    (by simp [sResTrailerBytesCount, sResultCodeBytesCount]) (by simp)

theorem createTransferMsgReq_eq_ok {number : UInt64} {methodIdx : UInt32} {message : Option ProtoMessage}
    {bytes : Bytes} (made : createTransferMsgReq number methodIdx message = .ok bytes) :
    bytes = reqFrame number methodIdx (payloadOf message) ∧
      (payloadOf message).length ≤ MaxRequestProtoSize := by
  obtain ⟨serializes, small⟩ := createTransferMsg_accepts made
  rw [createTransferMsgReq_eq number methodIdx serializes small] at made
  exact ⟨(Except.ok.inj made).symm, small⟩

theorem createTransferMsgRes_eq_ok {number : UInt64} {rc : ResponseResult} {message : Option ProtoMessage}
    {bytes : Bytes} (made : createTransferMsgRes number rc message = .ok bytes) :
    bytes = resFrame number rc (payloadOf message) ∧
      (payloadOf message).length ≤ MaxResponseProtoSize := by
  obtain ⟨serializes, small⟩ := createTransferMsg_accepts made
  rw [createTransferMsgRes_eq number rc serializes small] at made
  exact ⟨(Except.ok.inj made).symm, small⟩

section Frames

variable (number : UInt64) {payload : Bytes} (small : payload.length < 2 ^ 32)
include small

theorem isRequestBufferValid_reqFrame (methodIdx : UInt32) :
    isRequestBufferValid (some (reqFrame number methodIdx payload)) = .ok true :=
  isBufferValid_frame .req payload number (fromUint32ToBigEndian methodIdx) small
    (by simp [sReqTrailerBytesCount, sMethodIdxBytesCount])

theorem isResponseBufferValid_resFrame (rc : ResponseResult) :
    isResponseBufferValid (some (resFrame number rc payload)) = .ok true :=
  isBufferValid_frame .res payload number [rc.toByte] small
    (by simp [sResTrailerBytesCount, sResultCodeBytesCount])

theorem getMsgNumberReq_reqFrame (methodIdx : UInt32) :
    getMsgNumberReq (some (reqFrame number methodIdx payload)) = .ok number := by
  have hread := readTrailer_frame .req number [] (fromUint64BigEndian number)
    (fromUint32ToBigEndian methodIdx) small (isRequestBufferValid_reqFrame number small methodIdx) rfl
  rw [length_fromUint64BigEndian, List.length_nil] at hread
  simp only [getMsgNumberReq, reqFrame, sMessageNumberBytesCount, hread, Functor.map, Except.map,
    toUint64_fromUint64]

theorem getMsgMethodIdxReq_reqFrame (methodIdx : UInt32) :
    getMsgMethodIdxReq (some (reqFrame number methodIdx payload)) = .ok methodIdx := by
  have hread := readTrailer_frame .req number (fromUint64BigEndian number)
    (fromUint32ToBigEndian methodIdx) [] small
    (isRequestBufferValid_reqFrame number small methodIdx) (List.append_nil _).symm
  rw [length_fromUint64BigEndian, length_fromUint32ToBigEndian] at hread
  simp only [getMsgMethodIdxReq, reqFrame, sMessageNumberBytesCount, sMethodIdxBytesCount, hread,
    Functor.map, Except.map, toUint32_fromUint32]

theorem getMsgNumberRes_resFrame (rc : ResponseResult) :
    getMsgNumberRes (some (resFrame number rc payload)) = .ok number := by
  have hread := readTrailer_frame .res number [] (fromUint64BigEndian number) [rc.toByte] small
    (isResponseBufferValid_resFrame number small rc) rfl
  rw [length_fromUint64BigEndian, List.length_nil] at hread
  simp only [getMsgNumberRes, resFrame, sMessageNumberBytesCount, hread, Functor.map, Except.map,
    toUint64_fromUint64]

theorem getMsgResponseCodeRes_resFrame (rc : ResponseResult) :
    getMsgResponseCodeRes (some (resFrame number rc payload)) = .ok rc := by
  have hread := readTrailer_frame .res number (fromUint64BigEndian number) [rc.toByte] [] small
    (isResponseBufferValid_resFrame number small rc) (List.append_nil _).symm
  rw [length_fromUint64BigEndian, List.length_singleton] at hread
  simp only [getMsgResponseCodeRes, resFrame, sMessageNumberBytesCount, sResultCodeBytesCount, hread,
    Functor.map, Except.map, List.headD_cons, ResponseResult.ofByte_toByte]

/-- A request frame determines its fields. -/
theorem reqFrame_inj {number' : UInt64} {methodIdx methodIdx' : UInt32} {payload' : Bytes}
    (same : reqFrame number methodIdx payload = reqFrame number' methodIdx' payload') :
    number = number' ∧ methodIdx = methodIdx' ∧ payload = payload' := by
  have lengths := congrArg List.length same
  rw [reqFrame, reqFrame, length_frame, length_frame, length_fromUint32ToBigEndian,
    length_fromUint32ToBigEndian] at lengths
  have small' : payload'.length < 2 ^ 32 := by omega
  have numbers := getMsgNumberReq_reqFrame number small methodIdx
  have methods := getMsgMethodIdxReq_reqFrame number small methodIdx
  rw [same, getMsgNumberReq_reqFrame number' small' methodIdx'] at numbers
  rw [same, getMsgMethodIdxReq_reqFrame number' small' methodIdx'] at methods
  refine ⟨(Except.ok.inj numbers).symm, (Except.ok.inj methods).symm, ?_⟩
  obtain ⟨view, shown, read⟩ :=
    getSerializedProtoMessage_frame .req payload number (fromUint32ToBigEndian methodIdx) small
  obtain ⟨view', shown', read'⟩ :=
    getSerializedProtoMessage_frame .req payload' number' (fromUint32ToBigEndian methodIdx') small'
  change getSerializedProtoMessage (some (reqFrame number methodIdx payload)) = _ at shown
  change view.bytes (some (reqFrame number methodIdx payload)) = _ at read
  rw [same] at shown read
  obtain rfl := Except.ok.inj (shown.symm.trans shown')
  exact Except.ok.inj (read.symm.trans read')

end Frames

/-- The round trip of both message kinds. What the encoder accepts becomes a frame of its own kind
    within the transfer limit whose fields are read back unchanged; a serialization over 1 MiB is
    refused with an exception. -/
theorem transferMsg_roundTrip (number : UInt64) (message : Option ProtoMessage) :
    (∀ methodIdx : UInt32,
      ((∀ m, message = some m → m.serializes = true) → (payloadOf message).length ≤ 1024 * 1024 →
        ∃ bytes, createTransferMsgReq number methodIdx message = .ok bytes ∧
          isRequestBufferValid (some bytes) = .ok true ∧
          isResponseBufferValid (some bytes) = .ok false ∧
          getTransferMsgType (some bytes) = .ok .req ∧
          getMsgNumberReq (some bytes) = .ok number ∧
          getMsgMethodIdxReq (some bytes) = .ok methodIdx ∧
          (∃ view, getSerializedProtoMessage (some bytes) = .ok view ∧
            view.bytes (some bytes) = .ok (payloadOf message)) ∧
          bytes.length ≤ MaxTransferMessageSize) ∧
      (1024 * 1024 < (payloadOf message).length →
        createTransferMsgReq number methodIdx message =
          .error (.runtimeError "message is too big"))) ∧
    (∀ rc : ResponseResult,
      ((∀ m, message = some m → m.serializes = true) → (payloadOf message).length ≤ 1024 * 1024 →
        ∃ bytes, createTransferMsgRes number rc message = .ok bytes ∧
          isResponseBufferValid (some bytes) = .ok true ∧
          isRequestBufferValid (some bytes) = .ok false ∧
          getTransferMsgType (some bytes) = .ok .res ∧
          getMsgNumberRes (some bytes) = .ok number ∧
          getMsgResponseCodeRes (some bytes) = .ok rc ∧
          (∃ view, getSerializedProtoMessage (some bytes) = .ok view ∧
            view.bytes (some bytes) = .ok (payloadOf message)) ∧
          bytes.length ≤ MaxTransferMessageSize) ∧
      (1024 * 1024 < (payloadOf message).length →
        createTransferMsgRes number rc message =
          .error (.runtimeError "message is too big"))) := by
  constructor
  · intro methodIdx
    refine ⟨?_, fun big => createTransferMsg_too_big .req number message _ big⟩
    intro serializes small
    have hword : (payloadOf message).length < 2 ^ 32 := by omega
    have hlen := length_frame .req (payloadOf message) number (fromUint32ToBigEndian methodIdx)
    refine ⟨_, createTransferMsgReq_eq number methodIdx serializes small,
      isRequestBufferValid_reqFrame number hword methodIdx,
      isBufferValid_other_type (by decide) _ _ _ _, getTransferMsgType_frame _ _ _ _,
      getMsgNumberReq_reqFrame number hword methodIdx,
      getMsgMethodIdxReq_reqFrame number hword methodIdx,
      getSerializedProtoMessage_frame _ _ _ _ hword, ?_⟩
    rw [reqFrame, hlen, length_fromUint32ToBigEndian, MaxTransferMessageSize, sHeaderBytesCount,
      sMessageTypeBytesCount, sSerializedProtoMessageSizeBytesCount, sMessageNumberBytesCount]
    omega
  · intro rc
    refine ⟨?_, fun big => createTransferMsg_too_big .res number message _ big⟩
    intro serializes small
    have hword : (payloadOf message).length < 2 ^ 32 := by omega
    have hlen := length_frame .res (payloadOf message) number [rc.toByte]
    refine ⟨_, createTransferMsgRes_eq number rc serializes small,
      isResponseBufferValid_resFrame number hword rc,
      isBufferValid_other_type (by decide) _ _ _ _, getTransferMsgType_frame _ _ _ _,
      getMsgNumberRes_resFrame number hword rc, getMsgResponseCodeRes_resFrame number hword rc,
      getSerializedProtoMessage_frame _ _ _ _ hword, ?_⟩
    rw [resFrame, hlen, List.length_singleton, MaxTransferMessageSize, sHeaderBytesCount,
      sMessageTypeBytesCount, sSerializedProtoMessageSizeBytesCount, sMessageNumberBytesCount]
    omega

/-- The round trip on a three-byte message, with the number and the index at their largest. -/
theorem transferMsg_roundTrip_three_bytes :
    ∃ bytes, createTransferMsgReq 0xFFFFFFFFFFFFFFFF 0xFFFFFFFF
        (some { serialization := [1, 2, 3], serializes := true }) = .ok bytes ∧
      getMsgNumberReq (some bytes) = .ok 0xFFFFFFFFFFFFFFFF ∧
      getMsgMethodIdxReq (some bytes) = .ok 0xFFFFFFFF := by
  have hround := transferMsg_roundTrip 0xFFFFFFFFFFFFFFFF
    (some { serialization := [1, 2, 3], serializes := true })
  have haccepted := (hround.1 0xFFFFFFFF).1
  obtain ⟨bytes, hcreate, _, _, _, hnumber, hidx, _⟩ := by
    refine haccepted ?_ (by decide)
    intro m hm
    cases hm
    rfl
  exact ⟨bytes, hcreate, hnumber, hidx⟩

end CommonRpc
