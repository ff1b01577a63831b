/-
Module: CommonRpc.Proofs.TransferMessageReading
Purpose: The readers of `transfer-message.cpp` on an arbitrary buffer, as it may come from a peer. A buffer
  passes a validity predicate exactly when it starts with a frame of the documented layout: the payload of
  that frame has any length the size field can announce, and any bytes may follow the frame. From this
  decomposition every reader is computed on every buffer: none reads outside it or lets a size wrap, the
  trailer getters return exactly on valid buffers, and the payload view keeps clear of what they read.
Trusted boundary: none
-/
import CommonRpc.Proofs.TransferMessage

namespace CommonRpc

open Lib

/-! ### Big-endian helpers -/

/-- Four bytes are the digits of the number read from them. -/
theorem fromUint32_toUint32 {bytes : Bytes} (four : bytes.length = 4) :
    fromUint32ToBigEndian (toUint32ToBigEndian bytes) = bytes := by
  have value : (toUint32ToBigEndian bytes).toNat = BigEndian.ofBytes bytes :=
    BigEndian.orShift_toNat (by omega)
  rw [fromUint32ToBigEndian_eq, value, ← four, BigEndian.toBytes_ofBytes]

/-- Eight bytes are the digits of the number read from them. -/
theorem fromUint64_toUint64 {bytes : Bytes} (eight : bytes.length = 8) :
    fromUint64BigEndian (toUint64BigEndian bytes) = bytes := by
  have value : (toUint64BigEndian bytes).toNat = BigEndian.ofBytes bytes :=
    BigEndian.orShift_toNat (by omega)
  rw [fromUint64BigEndian_eq, value, ← eight, BigEndian.toBytes_ofBytes]

/-! ### Buffers that hold the header -/

/-- The size a buffer with a whole header announces. -/
def announcedSize (bytes : Bytes) : UInt32 := toUint32ToBigEndian ((bytes.drop 1).take 4)

theorem extractMessageSize_eq (bytes : Bytes) (header : sHeaderBytesCount ≤ bytes.length) :
    extractMessageSize (some bytes) = .ok (announcedSize bytes) := by
  have inside : sMessageTypeBytesCount + sSerializedProtoMessageSizeBytesCount ≤ bytes.length := header
  simp only [extractMessageSize, readBytes, if_pos inside, bind, Except.bind, pure, Except.pure]
  rfl

theorem readByte_zero_eq {bytes : Bytes} (header : sHeaderBytesCount ≤ bytes.length) :
    readByte (some bytes) 0 = .ok (bytes.headD 0) := by
  cases bytes with
  | nil => simp [sHeaderBytesCount, sMessageTypeBytesCount] at header
  | cons first rest => rfl

/-- A validity predicate on a buffer that is long enough for header and trailer: no access leaves the buffer
    and no subtraction wraps. -/
theorem isBufferValid_eq (type : TransferMsgType) {trailerBytesCount : Nat} {bytes : Bytes}
    (long : sHeaderBytesCount + trailerBytesCount ≤ bytes.length) :
    isBufferValid type trailerBytesCount (some bytes) =
      .ok (decide (TransferMsgType.ofByte (bytes.headD 0) = type ∧
        sHeaderBytesCount + (announcedSize bytes).toNat + trailerBytesCount ≤ bytes.length)) := by
  have header : sHeaderBytesCount ≤ bytes.length := by omega
  have hheader : sizeSub bytes.length sHeaderBytesCount = .ok (bytes.length - sHeaderBytesCount) :=
    if_pos header
  have htrailer : sizeSub (bytes.length - sHeaderBytesCount) trailerBytesCount =
      .ok (bytes.length - sHeaderBytesCount - trailerBytesCount) :=
    if_pos (by omega)
  have room : (announcedSize bytes).toNat ≤ bytes.length - sHeaderBytesCount - trailerBytesCount ↔
      sHeaderBytesCount + (announcedSize bytes).toNat + trailerBytesCount ≤ bytes.length := by
    omega
  simp only [isBufferValid, Option.isNone_some, Bool.false_eq_true, if_false, Buffer.size_some,
    if_neg (Nat.not_lt.mpr long), readByte_zero_eq header, extractMessageSize_eq bytes header, hheader, htrailer,
    room, bind, Except.bind, pure, Except.pure]
  by_cases same : TransferMsgType.ofByte (bytes.headD 0) = type
  · simp only [same, ne_eq, not_true, if_false, true_and]
  · simp only [same, ne_eq, not_false_eq_true, if_true, false_and, decide_false]

/-- A shorter buffer, or none, is refused before a byte of it is read. -/
theorem isBufferValid_short (type : TransferMsgType) {trailerBytesCount : Nat} {buff : Buffer}
    (short : buff.size < sHeaderBytesCount + trailerBytesCount) :
    isBufferValid type trailerBytesCount buff = .ok false := by
  cases buff with
  | none => rfl
  | some bytes =>
      simp only [isBufferValid, Option.isNone_some, Bool.false_eq_true, if_false, if_pos short]
      rfl

/-- The validity predicates answer on every buffer. -/
theorem isBufferValid_total (type : TransferMsgType) (trailerBytesCount : Nat) (buff : Buffer) :
    ∃ valid, isBufferValid type trailerBytesCount buff = .ok valid := by
  by_cases short : buff.size < sHeaderBytesCount + trailerBytesCount
  · exact ⟨false, isBufferValid_short type short⟩
  · cases buff with
    | none => exact ⟨false, rfl⟩
    | some bytes => exact ⟨_, isBufferValid_eq type (Nat.not_lt.mp short)⟩

/-! ### An accepted buffer starts with a frame -/

/-- The header, the announced number of bytes and the eight bytes of a number are the start of a frame. -/
theorem eq_frame (bytes : Bytes)
    (room : sHeaderBytesCount + (announcedSize bytes).toNat + sMessageNumberBytesCount ≤ bytes.length) :
    ∃ payload number last, payload.length < 2 ^ 32 ∧
      bytes = frame (TransferMsgType.ofByte (bytes.headD 0)) payload number last := by
  generalize size : (announcedSize bytes).toNat = n at room
  have word : n < 2 ^ 32 := by
    rw [← size]
    exact (announcedSize bytes).toNat_lt
  simp only [sHeaderBytesCount, sMessageTypeBytesCount, sSerializedProtoMessageSizeBytesCount,
    sMessageNumberBytesCount] at room
  obtain ⟨first, rest, rfl⟩ := List.exists_cons_of_length_pos (by omega : 0 < bytes.length)
  rw [List.length_cons] at room
  -- the four fields after the type byte, cut off one after the other
  have sizeField : (rest.take 4).length = 4 := by
    rw [List.length_take]
    omega
  have payloadField : ((rest.drop 4).take n).length = n := by
    rw [List.length_take, List.length_drop]
    omega
  have numberField : (((rest.drop 4).drop n).take 8).length = 8 := by
    rw [List.length_take, List.length_drop, List.length_drop]
    omega
  have announced : UInt32.ofNat n = toUint32ToBigEndian (rest.take 4) := by
    rw [← size]
    exact UInt32.ofNat_toNat
  refine ⟨(rest.drop 4).take n, toUint64BigEndian (((rest.drop 4).drop n).take 8),
    ((rest.drop 4).drop n).drop 8, by omega, ?_⟩
  rw [frame, payloadField, announced, fromUint32_toUint32 sizeField, fromUint64_toUint64 numberField,
    List.headD_cons, TransferMsgType.toByte_ofByte, List.append_assoc, List.take_append_drop,
    List.append_assoc, List.take_append_drop, List.append_assoc, List.take_append_drop]
  rfl

/-- What a validity predicate accepts: a frame of its type with at least the bytes of the trailer behind the
    payload. Nothing else is asked of the buffer. -/
theorem isBufferValid_iff (type : TransferMsgType) {trailerBytesCount : Nat}
    (numbered : sMessageNumberBytesCount ≤ trailerBytesCount) (buff : Buffer) :
    isBufferValid type trailerBytesCount buff = .ok true ↔
      ∃ payload number last, payload.length < 2 ^ 32 ∧
        trailerBytesCount ≤ sMessageNumberBytesCount + last.length ∧
        buff = some (frame type payload number last) := by
  constructor
  · intro valid
    have long : ¬ buff.size < sHeaderBytesCount + trailerBytesCount := by
      intro short
      rw [isBufferValid_short type short] at valid
      cases valid
    cases buff with
    | none => cases valid
    | some bytes =>
        rw [isBufferValid_eq type (Nat.not_lt.mp long)] at valid
        obtain ⟨same, room⟩ := of_decide_eq_true (Except.ok.inj valid)
        obtain ⟨payload, number, last, small, cut⟩ := eq_frame bytes (by omega)
        rw [same] at cut
        refine ⟨payload, number, last, small, ?_, congrArg some cut⟩
        have size : (announcedSize bytes).toNat = payload.length := by
          have read := extractMessageSize_eq bytes (by omega)
          rw [cut, extractMessageSize_frame] at read
          rw [cut, ← Except.ok.inj read, UInt32.toNat_ofNat_of_lt' small]
        have lengths := congrArg List.length cut
        rw [length_frame] at lengths
        omega
  · rintro ⟨payload, number, last, small, trailer, rfl⟩
    exact isBufferValid_frame_long type payload number last small trailer

/-! ### Every reader on every buffer -/

/-- A reader that returns or throws the exception of the source: it has neither read outside the buffer nor
    let a size subtraction wrap. -/
def ReturnsOrThrows {α : Type} (result : Except MsgError α) : Prop :=
  (∃ a, result = .ok a) ∨ result = .error (.runtimeError "invalid buffer")

/-- A getter that returns a value where its validity predicate holds and throws where it does not. -/
def Guarded {α : Type} (valid : Except MsgError Bool) (result : Except MsgError α) : Prop :=
  valid = .ok true ∧ (∃ a, result = .ok a) ∨
    valid = .ok false ∧ result = .error (.runtimeError "invalid buffer")

theorem Guarded.map {α β : Type} {valid : Except MsgError Bool} {result : Except MsgError α}
    (guarded : Guarded valid result) (f : α → β) : Guarded valid (f <$> result) := by
  cases guarded with
  | inl returns =>
      obtain ⟨holds, a, returned⟩ := returns
      exact .inl ⟨holds, f a, by rw [returned]; rfl⟩
  | inr throws =>
      obtain ⟨fails, thrown⟩ := throws
      exact .inr ⟨fails, by rw [thrown]; rfl⟩

theorem Guarded.valid_of_ok {α : Type} {valid : Except MsgError Bool} {result : Except MsgError α} {a : α}
    (guarded : Guarded valid result) (returned : result = .ok a) : valid = .ok true := by
  cases guarded with
  | inl returns => exact returns.1
  | inr throws => exact absurd (throws.2.symm.trans returned) nofun

theorem getTransferMsgType_returnsOrThrows (message : Buffer) :
    ReturnsOrThrows (getTransferMsgType message) := by
  cases message with
  | none => exact .inr rfl
  | some bytes =>
      cases bytes with
      | nil => exact .inr rfl
      | cons first rest => exact .inl ⟨TransferMsgType.ofByte first, rfl⟩

theorem getSerializedProtoMessage_returnsOrThrows (message : Buffer) :
    ReturnsOrThrows (getSerializedProtoMessage message) := by
  cases message with
  | none => exact .inr rfl
  | some bytes =>
      by_cases header : sHeaderBytesCount ≤ bytes.length
      · have room : sizeSub bytes.length sHeaderBytesCount = .ok (bytes.length - sHeaderBytesCount) :=
          if_pos header
        simp only [ReturnsOrThrows, getSerializedProtoMessage, Option.isNone_some, Bool.false_eq_true,
          if_false, Buffer.size_some, gt_iff_lt, if_neg (Nat.not_lt.mpr header),
          extractMessageSize_eq bytes header, room, bind, Except.bind, pure, Except.pure]
        split
        next => exact .inr rfl
        next => exact .inl ⟨_, rfl⟩
      · right
        simp only [getSerializedProtoMessage, Option.isNone_some, Bool.false_eq_true, if_false,
          Buffer.size_some, gt_iff_lt, if_pos (Nat.not_le.mp header)]
        rfl

/-- A trailer getter whose field lies within the trailer that its predicate asks for. -/
theorem readTrailer_guarded (type : TransferMsgType) {trailerBytesCount skip len : Nat}
    (numbered : sMessageNumberBytesCount ≤ trailerBytesCount) (within : skip + len ≤ trailerBytesCount)
    (message : Buffer) :
    Guarded (isBufferValid type trailerBytesCount message)
      (readTrailer (isBufferValid type trailerBytesCount) skip len message) := by
  obtain ⟨valid, answered⟩ := isBufferValid_total type trailerBytesCount message
  cases valid with
  | false =>
      refine .inr ⟨answered, ?_⟩
      rw [readTrailer, answered]
      rfl
  | true =>
      refine .inl ⟨answered, ?_⟩
      obtain ⟨payload, number, last, small, trailer, rfl⟩ :=
        (isBufferValid_iff type numbered message).mp answered
      have inside : sHeaderBytesCount + payload.length + skip + len ≤
          (frame type payload number last).length := by
        rw [length_frame]
        omega
      simp only [readTrailer, answered, extractMessageSize_frame, UInt32.toNat_ofNat_of_lt' small, readBytes,
        if_pos inside, bind, Except.bind, Bool.not_true, Bool.false_eq_true, if_false]
      exact ⟨_, rfl⟩

theorem getMsgNumberReq_guarded (message : Buffer) :
    Guarded (isRequestBufferValid message) (getMsgNumberReq message) :=
  (readTrailer_guarded .req (by decide) (by decide) message).map _

theorem getMsgMethodIdxReq_guarded (message : Buffer) :
    Guarded (isRequestBufferValid message) (getMsgMethodIdxReq message) :=
  (readTrailer_guarded .req (by decide) (by decide) message).map _

theorem getMsgNumberRes_guarded (message : Buffer) :
    Guarded (isResponseBufferValid message) (getMsgNumberRes message) :=
  (readTrailer_guarded .res (by decide) (by decide) message).map _

theorem getMsgResponseCodeRes_guarded (message : Buffer) :
    Guarded (isResponseBufferValid message) (getMsgResponseCodeRes message) :=
  (readTrailer_guarded .res (by decide) (by decide) message).map _

/-! ### The payload view keeps clear of the other fields -/

/-- Two buffers that differ at most in the bytes a view shows. -/
def SameOutside (view : SubView) (bytes other : Bytes) : Prop :=
  other.length = bytes.length ∧
    ∀ i, i < view.start ∨ view.start + view.size ≤ i → other[i]? = bytes[i]?

/-- A buffer that differs from a frame in the payload only is a frame with the same other fields. -/
theorem SameOutside.eq_frame {type : TransferMsgType} {payload : Bytes} {number : UInt64}
    {last other : Bytes}
    (same : SameOutside { start := sHeaderBytesCount, size := payload.length }
      (frame type payload number last) other) :
    ∃ payload', payload'.length = payload.length ∧ other = frame type payload' number last := by
  obtain ⟨lengths, bytewise⟩ := same
  generalize header : [type.toByte] ++ fromUint32ToBigEndian (UInt32.ofNat payload.length) = front at *
  have five : front.length = sHeaderBytesCount := by
    rw [← header]
    simp [sHeaderBytesCount, sMessageTypeBytesCount, sSerializedProtoMessageSizeBytesCount]
  have cut : frame type payload number last =
      front ++ (payload ++ (fromUint64BigEndian number ++ last)) := by
    rw [frame, header]
    simp only [List.append_assoc]
  rw [length_frame] at lengths
  have before : other.take sHeaderBytesCount = front := by
    apply List.ext_getElem?
    intro i
    rw [List.getElem?_take]
    split
    next inside =>
        rw [bytewise i (.inl inside), cut, List.getElem?_append_left (by omega)]
    next outside =>
        rw [List.getElem?_eq_none (by omega)]
  have behind : other.drop (sHeaderBytesCount + payload.length) = fromUint64BigEndian number ++ last := by
    apply List.ext_getElem?
    intro i
    have outside : other[sHeaderBytesCount + payload.length + i]? =
        (frame type payload number last)[sHeaderBytesCount + payload.length + i]? :=
      bytewise _ (.inr (Nat.le_add_right _ _))
    rw [List.getElem?_drop, outside, cut, List.getElem?_append_right (by omega),
      List.getElem?_append_right (by omega)]
    congr 1
    omega
  have middle : ((other.drop sHeaderBytesCount).take payload.length).length = payload.length := by
    rw [List.length_take, List.length_drop]
    omega
  refine ⟨(other.drop sHeaderBytesCount).take payload.length, middle, ?_⟩
  calc other
      = other.take sHeaderBytesCount ++ ((other.drop sHeaderBytesCount).take payload.length ++
          (other.drop sHeaderBytesCount).drop payload.length) := by
        rw [List.take_append_drop, List.take_append_drop]
    _ = frame type ((other.drop sHeaderBytesCount).take payload.length) number last := by
        rw [before, List.drop_drop, behind, frame, middle, header]
        simp only [List.append_assoc]

/-- What a trailer getter reads does not depend on the payload. -/
theorem readTrailer_payload {type : TransferMsgType} {payload payload' : Bytes} (number : UInt64)
    {last : Bytes} {trailerBytesCount : Nat} (skip len : Nat) (small : payload.length < 2 ^ 32)
    (lengths : payload'.length = payload.length)
    (trailer : trailerBytesCount ≤ sMessageNumberBytesCount + last.length)
    (within : skip + len ≤ sMessageNumberBytesCount + last.length) :
    readTrailer (isBufferValid type trailerBytesCount) skip len
        (some (frame type payload' number last)) =
      readTrailer (isBufferValid type trailerBytesCount) skip len
        (some (frame type payload number last)) := by
  -- both frames show the same field: the cut of the trailer at `skip` and `skip + len`
  generalize whole : fromUint64BigEndian number ++ last = rest
  have length : rest.length = sMessageNumberBytesCount + last.length := by
    rw [← whole, List.length_append, length_fromUint64BigEndian]
    rfl
  have place : fromUint64BigEndian number ++ last =
      rest.take skip ++ (rest.drop skip).take len ++ (rest.drop skip).drop len := by
    rw [List.append_assoc, List.take_append_drop, List.take_append_drop, whole]
  have skipped : (rest.take skip).length = skip := by
    rw [List.length_take]
    omega
  have taken : ((rest.drop skip).take len).length = len := by
    rw [List.length_take, List.length_drop]
    omega
  have reads : ∀ shown : Bytes, shown.length < 2 ^ 32 →
      readTrailer (isBufferValid type trailerBytesCount) skip len (some (frame type shown number last)) =
        .ok ((rest.drop skip).take len) := by
    intro shown word
    have field := readTrailer_frame type number (rest.take skip) ((rest.drop skip).take len)
      ((rest.drop skip).drop len) word (isBufferValid_frame_long type shown number last word trailer) place
    rwa [skipped, taken] at field
  rw [reads payload' (by omega), reads payload small]

/-- The view lies inside the buffer with the trailer behind it, and whatever the bytes it shows are replaced
    by, the type and the trailer fields read the same. -/
def ViewApart (trailerBytesCount : Nat) (view : SubView) (bytes : Bytes)
    (sameFields : Buffer → Buffer → Prop) : Prop :=
  view.start = sHeaderBytesCount ∧ view.start + view.size + trailerBytesCount ≤ bytes.length ∧
    ∀ other, SameOutside view bytes other →
      getTransferMsgType (some other) = getTransferMsgType (some bytes) ∧ sameFields (some other) (some bytes)

theorem getSerializedProtoMessage_apart {type : TransferMsgType} {trailerBytesCount : Nat}
    (numbered : sMessageNumberBytesCount ≤ trailerBytesCount) {bytes : Bytes}
    {sameFields : Buffer → Buffer → Prop}
    (fields : ∀ other, (∀ skip len, skip + len ≤ trailerBytesCount →
      readTrailer (isBufferValid type trailerBytesCount) skip len (some other) =
        readTrailer (isBufferValid type trailerBytesCount) skip len (some bytes)) →
      sameFields (some other) (some bytes))
    (valid : isBufferValid type trailerBytesCount (some bytes) = .ok true) :
    ∃ view, getSerializedProtoMessage (some bytes) = .ok view ∧
      ViewApart trailerBytesCount view bytes sameFields := by
  obtain ⟨payload, number, last, small, trailer, cut⟩ :=
    (isBufferValid_iff type numbered (some bytes)).mp valid
  obtain rfl := Option.some.inj cut
  refine ⟨_, getSerializedProtoMessage_view type number last small, rfl, ?_, ?_⟩
  · rw [length_frame]
    simp only
    omega
  · intro other same
    obtain ⟨payload', lengths, rfl⟩ := same.eq_frame
    refine ⟨?_, ?_⟩
    · rw [getTransferMsgType_frame, getTransferMsgType_frame]
    · apply fields
      intro skip len within
      exact readTrailer_payload number skip len small lengths trailer (by omega)

/-- The readers on any buffer, null, empty or hostile. The predicates answer, the other readers return or
    throw their exception, and no access leaves the buffer or subtraction wraps on the way. The offsets stay
    below the buffer's size, so they fit in any `size_t` that holds it. The getters of the trailer return
    exactly where their predicate holds, and there the payload view stands inside the buffer, clear of the
    bytes from which the type and the trailer fields are read. -/
theorem transferMsg_readers_safe (buff : Buffer) :
    (∃ valid, isRequestBufferValid buff = .ok valid) ∧
    (∃ valid, isResponseBufferValid buff = .ok valid) ∧
    ReturnsOrThrows (getTransferMsgType buff) ∧
    ReturnsOrThrows (getSerializedProtoMessage buff) ∧
    Guarded (isRequestBufferValid buff) (getMsgNumberReq buff) ∧
    Guarded (isRequestBufferValid buff) (getMsgMethodIdxReq buff) ∧
    Guarded (isResponseBufferValid buff) (getMsgNumberRes buff) ∧
    Guarded (isResponseBufferValid buff) (getMsgResponseCodeRes buff) ∧
    (∀ bytes, buff = some bytes → isRequestBufferValid (some bytes) = .ok true →
      ∃ view, getSerializedProtoMessage (some bytes) = .ok view ∧
        ViewApart sReqTrailerBytesCount view bytes fun other this =>
          getMsgNumberReq other = getMsgNumberReq this ∧
            getMsgMethodIdxReq other = getMsgMethodIdxReq this) ∧
    (∀ bytes, buff = some bytes → isResponseBufferValid (some bytes) = .ok true →
      ∃ view, getSerializedProtoMessage (some bytes) = .ok view ∧
        ViewApart sResTrailerBytesCount view bytes fun other this =>
          getMsgNumberRes other = getMsgNumberRes this ∧
            getMsgResponseCodeRes other = getMsgResponseCodeRes this) := by
  refine ⟨isBufferValid_total .req sReqTrailerBytesCount buff,
    isBufferValid_total .res sResTrailerBytesCount buff, getTransferMsgType_returnsOrThrows buff,
    getSerializedProtoMessage_returnsOrThrows buff, getMsgNumberReq_guarded buff,
    getMsgMethodIdxReq_guarded buff, getMsgNumberRes_guarded buff, getMsgResponseCodeRes_guarded buff,
    ?_, ?_⟩
  · rintro bytes - valid
    refine getSerializedProtoMessage_apart (by decide) ?_ valid
    intro other same
    exact ⟨congrArg (toUint64BigEndian <$> ·) (same _ _ (by decide)),
      congrArg (toUint32ToBigEndian <$> ·) (same _ _ (by decide))⟩
  · rintro bytes - valid
    refine getSerializedProtoMessage_apart (by decide) ?_ valid
    intro other same
    exact ⟨congrArg (toUint64BigEndian <$> ·) (same _ _ (by decide)),
      congrArg ((fun field : Bytes => ResponseResult.ofByte (field.headD 0)) <$> ·) (same _ _ (by decide))⟩

/-! ### Which buffers are accepted -/

/-- A frame with bytes behind it is a frame with a longer last field. -/
theorem frame_append (type : TransferMsgType) (payload : Bytes) (number : UInt64) (last padding : Bytes) :
    frame type payload number last ++ padding = frame type payload number (last ++ padding) := by
  simp only [frame, List.append_assoc]

/-- A request is accepted when it starts with a request frame. -/
theorem isRequestBufferValid_iff (buff : Buffer) :
    isRequestBufferValid buff = .ok true ↔
      ∃ number methodIdx payload padding, payload.length < 2 ^ 32 ∧
        buff = some (reqFrame number methodIdx payload ++ padding) := by
  rw [isRequestBufferValid, isBufferValid_iff .req (by decide)]
  constructor
  · rintro ⟨payload, number, last, small, trailer, rfl⟩
    have four : (last.take 4).length = 4 := by
      rw [List.length_take]
      simp only [sReqTrailerBytesCount, sMessageNumberBytesCount, sMethodIdxBytesCount] at trailer
      omega
    refine ⟨number, toUint32ToBigEndian (last.take 4), payload, last.drop 4, small, ?_⟩
    rw [reqFrame, frame_append, fromUint32_toUint32 four, List.take_append_drop]
  · rintro ⟨number, methodIdx, payload, padding, small, rfl⟩
    refine ⟨payload, number, fromUint32ToBigEndian methodIdx ++ padding, small, ?_, ?_⟩
    · simp [sReqTrailerBytesCount, sMethodIdxBytesCount]
    · rw [reqFrame, frame_append]

/-- A response is accepted when it starts with a response frame. -/
theorem isResponseBufferValid_iff (buff : Buffer) :
    isResponseBufferValid buff = .ok true ↔
      ∃ number rc payload padding, payload.length < 2 ^ 32 ∧
        buff = some (resFrame number rc payload ++ padding) := by
  rw [isResponseBufferValid, isBufferValid_iff .res (by decide)]
  constructor
  · rintro ⟨payload, number, last, small, trailer, rfl⟩
    obtain ⟨code, padding, rfl⟩ := List.exists_cons_of_length_pos (l := last) (by
      simp only [sResTrailerBytesCount, sMessageNumberBytesCount, sResultCodeBytesCount] at trailer
      omega)
    refine ⟨number, .ofByte code, payload, padding, small, ?_⟩
    rw [resFrame, frame_append, ResponseResult.toByte_ofByte]
    rfl
  · rintro ⟨number, rc, payload, padding, small, rfl⟩
    refine ⟨payload, number, [rc.toByte] ++ padding, small, ?_, ?_⟩
    · simp [sResTrailerBytesCount, sResultCodeBytesCount]
    · rw [resFrame, frame_append]

section Padded

variable (number : UInt64) {payload : Bytes} (padding : Bytes) (small : payload.length < 2 ^ 32)
include small

theorem getMsgNumberReq_padded (methodIdx : UInt32) :
    getMsgNumberReq (some (reqFrame number methodIdx payload ++ padding)) = .ok number := by
  have valid := (isRequestBufferValid_iff _).mpr ⟨number, methodIdx, payload, padding, small, rfl⟩
  rw [reqFrame, frame_append] at valid ⊢
  have read := readTrailer_frame .req number [] (fromUint64BigEndian number)
    (fromUint32ToBigEndian methodIdx ++ padding) small valid rfl
  rw [length_fromUint64BigEndian, List.length_nil] at read
  simp only [getMsgNumberReq, sMessageNumberBytesCount, read, Functor.map, Except.map, toUint64_fromUint64]

theorem getMsgMethodIdxReq_padded (methodIdx : UInt32) :
    getMsgMethodIdxReq (some (reqFrame number methodIdx payload ++ padding)) = .ok methodIdx := by
  have valid := (isRequestBufferValid_iff _).mpr ⟨number, methodIdx, payload, padding, small, rfl⟩
  rw [reqFrame, frame_append] at valid ⊢
  have read := readTrailer_frame .req number (fromUint64BigEndian number)
    (fromUint32ToBigEndian methodIdx) padding small valid (List.append_assoc _ _ _).symm
  rw [length_fromUint64BigEndian, length_fromUint32ToBigEndian] at read
  simp only [getMsgMethodIdxReq, sMessageNumberBytesCount, sMethodIdxBytesCount, read, Functor.map,
    Except.map, toUint32_fromUint32]

theorem getMsgNumberRes_padded (rc : ResponseResult) :
    getMsgNumberRes (some (resFrame number rc payload ++ padding)) = .ok number := by
  have valid := (isResponseBufferValid_iff _).mpr ⟨number, rc, payload, padding, small, rfl⟩
  rw [resFrame, frame_append] at valid ⊢
  have read := readTrailer_frame .res number [] (fromUint64BigEndian number) ([rc.toByte] ++ padding) small
    valid rfl
  rw [length_fromUint64BigEndian, List.length_nil] at read
  simp only [getMsgNumberRes, sMessageNumberBytesCount, read, Functor.map, Except.map, toUint64_fromUint64]

theorem getMsgResponseCodeRes_padded (rc : ResponseResult) :
    getMsgResponseCodeRes (some (resFrame number rc payload ++ padding)) = .ok rc := by
  have valid := (isResponseBufferValid_iff _).mpr ⟨number, rc, payload, padding, small, rfl⟩
  rw [resFrame, frame_append] at valid ⊢
  have read := readTrailer_frame .res number (fromUint64BigEndian number) [rc.toByte] padding small valid
    (List.append_assoc _ _ _).symm
  rw [length_fromUint64BigEndian, List.length_singleton] at read
  simp only [getMsgResponseCodeRes, sMessageNumberBytesCount, sResultCodeBytesCount, read, Functor.map,
    Except.map, List.headD_cons, ResponseResult.ofByte_toByte]

/-- The payload view of a frame shows its payload, whatever comes behind the frame. -/
theorem view_padded (type : TransferMsgType) (last : Bytes) {view : SubView}
    (shown : getSerializedProtoMessage (some (frame type payload number last ++ padding)) = .ok view) :
    view.bytes (some (frame type payload number last ++ padding)) = .ok payload := by
  rw [frame_append] at shown ⊢
  obtain ⟨same, found, read⟩ := getSerializedProtoMessage_frame type payload number (last ++ padding) small
  obtain rfl := Except.ok.inj (found.symm.trans shown)
  exact read

end Padded

/-- The accepted buffers are those that start with a frame of the documented layout, of any number, method
    index or result byte and payload that the size field can announce; what follows the frame is not looked
    at. The fields read from an accepted buffer are those of that frame, so writing them again in the
    documented layout gives back the buffer up to what follows the frame. -/
theorem transferMsg_valid_iff (buff : Buffer) :
    (isRequestBufferValid buff = .ok true ↔
      ∃ number methodIdx payload padding, payload.length < 2 ^ 32 ∧
        buff = some (reqFrame number methodIdx payload ++ padding)) ∧
    (isResponseBufferValid buff = .ok true ↔
      ∃ number rc payload padding, payload.length < 2 ^ 32 ∧
        buff = some (resFrame number rc payload ++ padding)) ∧
    (∀ number methodIdx view payload, getMsgNumberReq buff = .ok number →
      getMsgMethodIdxReq buff = .ok methodIdx → getSerializedProtoMessage buff = .ok view →
      view.bytes buff = .ok payload → ∃ padding, buff = some (reqFrame number methodIdx payload ++ padding)) ∧
    (∀ number rc view payload, getMsgNumberRes buff = .ok number →
      getMsgResponseCodeRes buff = .ok rc → getSerializedProtoMessage buff = .ok view →
      view.bytes buff = .ok payload → ∃ padding, buff = some (resFrame number rc payload ++ padding)) := by
  refine ⟨isRequestBufferValid_iff buff, isResponseBufferValid_iff buff, ?_, ?_⟩
  · intro number methodIdx view payload numberRead methodRead shown payloadRead
    -- a number is read from valid buffers only, and those are cut into their fields
    have valid := (getMsgNumberReq_guarded buff).valid_of_ok numberRead
    obtain ⟨number', methodIdx', payload', padding, small, rfl⟩ := (isRequestBufferValid_iff buff).mp valid
    rw [getMsgNumberReq_padded number' padding small] at numberRead
    rw [getMsgMethodIdxReq_padded number' padding small] at methodRead
    rw [reqFrame, view_padded number' padding small .req _ shown] at payloadRead
    cases numberRead
    cases methodRead
    cases payloadRead
    exact ⟨padding, rfl⟩
  · intro number rc view payload numberRead codeRead shown payloadRead
    have valid := (getMsgNumberRes_guarded buff).valid_of_ok numberRead
    obtain ⟨number', rc', payload', padding, small, rfl⟩ := (isResponseBufferValid_iff buff).mp valid
    rw [getMsgNumberRes_padded number' padding small] at numberRead
    rw [getMsgResponseCodeRes_padded number' padding small] at codeRead
    rw [resFrame, view_padded number' padding small .res _ shown] at payloadRead
    cases numberRead
    cases codeRead
    cases payloadRead
    exact ⟨padding, rfl⟩

/-- Buffers that start with the same bytes announce the same payload size. -/
theorem payload_length_of_eq {number number' : UInt64} {methodIdx methodIdx' : UInt32}
    {payload payload' padding padding' : Bytes} (small : payload.length < 2 ^ 32)
    (small' : payload'.length < 2 ^ 32)
    (same : reqFrame number methodIdx payload ++ padding = reqFrame number' methodIdx' payload' ++ padding') :
    payload.length = payload'.length := by
  have sizes := extractMessageSize_frame .req payload number (fromUint32ToBigEndian methodIdx ++ padding)
  rw [← frame_append, ← reqFrame, same, reqFrame, frame_append, extractMessageSize_frame] at sizes
  have announced := congrArg UInt32.toNat (Except.ok.inj sizes)
  rw [UInt32.toNat_ofNat_of_lt' small, UInt32.toNat_ofNat_of_lt' small'] at announced
  exact announced.symm

/-- A request frame without payload is still accepted with one byte behind it, though that buffer is no frame:
    the size field announces no payload where a frame of that length has one byte of it. And a request whose
    payload is one byte longer than `create_transfer_msg_req` takes is accepted as well. -/
theorem padded_request_accepted :
    (¬ ∀ buff : Buffer, isRequestBufferValid buff = .ok true ↔
      ∃ number methodIdx payload, payload.length ≤ MaxRequestProtoSize ∧
        buff = some (reqFrame number methodIdx payload)) ∧
    ¬ ∀ buff : Buffer, isRequestBufferValid buff = .ok true ↔
      ∃ number methodIdx payload padding, payload.length ≤ MaxRequestProtoSize ∧
        buff = some (reqFrame number methodIdx payload ++ padding) := by
  have limit : MaxRequestProtoSize + 1 < 2 ^ 32 := by decide
  constructor
  · intro exact_frames
    have valid := (isRequestBufferValid_iff _).mpr ⟨0, 0, [], [0], by decide, rfl⟩
    obtain ⟨number, methodIdx, payload, small, same⟩ := (exact_frames _).mp valid
    have bytes := Option.some.inj same
    have lengths := congrArg List.length bytes
    rw [← List.append_nil (reqFrame number methodIdx payload)] at bytes
    have empty := payload_length_of_eq (by decide) (by omega) bytes
    rw [reqFrame, reqFrame, frame_append, length_frame, length_frame, List.length_append,
      length_fromUint32ToBigEndian, length_fromUint32ToBigEndian, ← empty] at lengths
    simp at lengths
  · intro short_frames
    have long := List.length_replicate (n := MaxRequestProtoSize + 1) (a := (0 : UInt8))
    have valid := (isRequestBufferValid_iff _).mpr
      ⟨0, 0, List.replicate (MaxRequestProtoSize + 1) 0, [], long.trans_lt limit, rfl⟩
    obtain ⟨number, methodIdx, payload, padding, small, same⟩ := (short_frames _).mp valid
    have announced := payload_length_of_eq (long.trans_lt limit) (by omega) (Option.some.inj same)
    rw [long] at announced
    omega

end CommonRpc
