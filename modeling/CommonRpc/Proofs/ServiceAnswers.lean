/-
Module: CommonRpc.Proofs.ServiceAnswers
Purpose: The answers of a service, for every received buffer and every method that runs its closure once. The six
  exits of `process_request_async` follow one decision list over the fields of the request; whichever frame is
  sent, it is the response frame of that list. A frame is sent exactly when the message that goes into it can be
  serialized: two of the error exits serialize an empty response message where the others send none.
Trusted boundary: none
-/
import CommonRpc.Core.Service
import CommonRpc.Proofs.TransferMessageReading

namespace CommonRpc

/-- A valid request with the fields the getters read from it. -/
structure IsRequest (reqMsg : Buffer) (request : Invocation) : Prop where
  valid : isRequestBufferValid reqMsg = .ok true
  number : getMsgNumberReq reqMsg = .ok request.number
  methodIdx : getMsgMethodIdxReq reqMsg = .ok request.methodIdx
  payload : ∃ view, getSerializedProtoMessage reqMsg = .ok view ∧ view.bytes reqMsg = .ok request.payload

/-- A buffer is a request, or the predicate refuses it. -/
theorem isRequest_or_invalid (reqMsg : Buffer) :
    (∃ request, IsRequest reqMsg request) ∨ isRequestBufferValid reqMsg = .ok false := by
  obtain ⟨valid, answered⟩ := isBufferValid_total .req sReqTrailerBytesCount reqMsg
  cases valid with
  | false => exact .inr answered
  | true =>
      obtain ⟨number, methodIdx, payload, padding, small, rfl⟩ := (isRequestBufferValid_iff reqMsg).mp answered
      refine .inl ⟨⟨number, methodIdx, payload⟩, answered, getMsgNumberReq_padded number padding small methodIdx,
        getMsgMethodIdxReq_padded number padding small methodIdx, ?_⟩
      rw [reqFrame, frame_append]
      exact getSerializedProtoMessage_frame .req payload number _ small

namespace Service

variable {gservice : Option ServiceDescriptor} {handler : Invocation → Handled} {reqMsg : Buffer}
  {request : Invocation}

/-! ### The posted task -/

/-- An invalid request is answered without a number of its own. -/
theorem processRequest_of_invalid (invalid : isRequestBufferValid reqMsg = .ok false) :
    processRequest gservice reqMsg = .ok (.answered (resFrame (-1) .invalidRequest [])) := by
  have made : createTransferMsgRes (-1) .invalidRequest none = .ok (resFrame (-1) .invalidRequest []) :=
    createTransferMsgRes_eq (-1) .invalidRequest nofun (Nat.zero_le _)
  simp only [processRequest, invalid, made, bind, Except.bind, pure, Except.pure, Bool.not_false, if_true]

/-- What the posted task does with a valid request, the reading of its fields done. -/
theorem processRequest_of_isRequest (isRequest : IsRequest reqMsg request) :
    processRequest gservice reqMsg =
      match gservice with
      | none => .ok (.answered (resFrame request.number .notImplemented []))
      | some gservice =>
          if gservice.methodCount ≤ request.methodIdx then
            .ok (.answered (resFrame request.number .notImplemented []))
          else if gservice.parses request.methodIdx request.payload then .ok (.invoked request)
          else Processed.answered <$>
            createTransferMsgRes request.number .requestParseError (some (gservice.empty request.methodIdx)) := by
  obtain ⟨view, shown, read⟩ := isRequest.payload
  have made : createTransferMsgRes request.number .notImplemented none =
      .ok (resFrame request.number .notImplemented []) :=
    createTransferMsgRes_eq request.number .notImplemented nofun (Nat.zero_le _)
  simp only [processRequest, isRequest.valid, isRequest.number, isRequest.methodIdx, shown, read, made, bind,
    Except.bind, pure, Except.pure, Bool.not_true, Bool.false_eq_true, if_false]
  cases gservice with
  | none => rfl
  | some gservice =>
      by_cases implemented : gservice.methodCount ≤ request.methodIdx
      · simp only [ge_iff_le, implemented, if_true]
      · by_cases parses : gservice.parses request.methodIdx request.payload = true
        · simp only [ge_iff_le, implemented, parses, if_false, if_true, Bool.not_true, Bool.false_eq_true]
        · simp only [ge_iff_le, implemented, parses, if_false, if_true, Bool.not_false]
          rfl

/-! ### What goes into the answer -/

/-- The code and the message of the frame that answers a valid request. -/
def answer (gservice : Option ServiceDescriptor) (handler : Invocation → Handled) (request : Invocation) :
    ResponseResult × Option ProtoMessage :=
  match gservice with
  | none => (.notImplemented, none)
  | some gservice =>
      if gservice.methodCount ≤ request.methodIdx then (.notImplemented, none)
      else if !gservice.parses request.methodIdx request.payload then
        (.requestParseError, some (gservice.empty request.methodIdx))
      else if isResponseProtoTooBig (handler request).response then
        (.responseTooBig, some (gservice.empty request.methodIdx))
      else (closureResult (handler request).unwinding, some (handler request).response)

/-- The six exits in one: an invalid request and the five ways of answering a valid one. -/
theorem processRequestAsync_of_invalid (invalid : isRequestBufferValid reqMsg = .ok false) :
    processRequestAsync gservice handler reqMsg = .ok (resFrame (-1) .invalidRequest []) := by
  rw [processRequestAsync, processRequest_of_invalid invalid]
  rfl

theorem processRequestAsync_of_isRequest (isRequest : IsRequest reqMsg request) :
    processRequestAsync gservice handler reqMsg =
      createTransferMsgRes request.number (answer gservice handler request).1
        (answer gservice handler request).2 := by
  have bare : createTransferMsgRes request.number .notImplemented none =
      .ok (resFrame request.number .notImplemented []) :=
    createTransferMsgRes_eq request.number .notImplemented nofun (Nat.zero_le _)
  rw [processRequestAsync, processRequest_of_isRequest isRequest]
  cases gservice with
  | none => exact bare.symm
  | some gservice =>
      simp only [answer]
      by_cases implemented : gservice.methodCount ≤ request.methodIdx
      · simp only [implemented, if_true]
        exact bare.symm
      · cases parses : gservice.parses request.methodIdx request.payload with
        | false =>
            simp only [implemented, if_false, Bool.false_eq_true, Bool.not_false, if_true]
            cases createTransferMsgRes request.number .requestParseError
                (some (gservice.empty request.methodIdx)) with
            | error e => rfl
            | ok response => rfl
        | true =>
            simp only [implemented, if_false, if_true, Bool.not_true, Bool.false_eq_true]
            -- what is left is the closure, which makes its choice by the size of the response
            change runClosure gservice request (closureResult (handler request).unwinding)
              (handler request).response = _
            rw [runClosure]
            split
            next => rfl
            next => rfl

/-- A response frame is made exactly from a message that serializes to at most 1 MiB, or from none. -/
theorem createTransferMsgRes_eq_ok_iff {number : UInt64} {rc : ResponseResult} {message : Option ProtoMessage}
    {bytes : Bytes} :
    createTransferMsgRes number rc message = .ok bytes ↔
      (∀ m, message = some m → m.serializes = true ∧ isResponseProtoTooBig m = false) ∧
        bytes = resFrame number rc (payloadOf message) := by
  constructor
  · intro made
    obtain ⟨serializes, small⟩ := createTransferMsg_accepts made
    refine ⟨?_, (createTransferMsgRes_eq_ok made).1⟩
    rintro m rfl
    exact ⟨serializes m rfl, decide_eq_false (Nat.not_lt.mpr small)⟩
  · rintro ⟨accepted, rfl⟩
    apply createTransferMsgRes_eq number rc
    · intro m same
      exact (accepted m same).1
    · cases message with
      | none => exact Nat.zero_le _
      | some m => exact Nat.not_lt.mp (of_decide_eq_false (accepted m rfl).2)

/-! ### The answers of a service in use -/

theorem settle_running (s : Service) (sent : Except MsgError Bytes) : (s.settle sent).running = s.running := by
  cases sent with
  | error e => rfl
  | ok response => rfl

theorem settle_responses (s : Service) (sent : Except MsgError Bytes) :
    (s.settle sent).responses = s.responses ++ sent.toOption.toList := by
  cases sent with
  | error e => exact (List.append_nil _).symm
  | ok response => rfl

/-- A service in use settles with the same value: either the posted task answers, or it leaves an invocation
    whose closure does. -/
theorem process_complete_responses (s : Service) (handler : Invocation → Handled) (reqMsg : Buffer) :
    ((s.process reqMsg).running = s.running ∧
      (s.process reqMsg).responses =
        s.responses ++ (processRequestAsync s.gservice handler reqMsg).toOption.toList) ∨
    ∃ invocation s', (s.process reqMsg).running = s.running ++ [invocation] ∧
      (s.process reqMsg).complete s.running.length (handler invocation).unwinding
        (handler invocation).response = some s' ∧
      s'.running = s.running ∧
      s'.responses = s.responses ++ (processRequestAsync s.gservice handler reqMsg).toOption.toList := by
  unfold Service.process processRequestAsync
  cases processed : processRequest s.gservice reqMsg with
  | error e => exact .inl ⟨rfl, (List.append_nil _).symm⟩
  | ok outcome =>
      cases outcome with
      | answered response => exact .inl ⟨rfl, rfl⟩
      | invoked invocation =>
          cases descriptor : s.gservice with
          | none =>
              -- an absent service invokes nothing
              exfalso
              rw [descriptor] at processed
              cases isRequest_or_invalid reqMsg with
              | inl valid =>
                  obtain ⟨request, isRequest⟩ := valid
                  rw [processRequest_of_isRequest isRequest] at processed
                  cases processed
              | inr invalid =>
                  rw [processRequest_of_invalid invalid] at processed
                  cases processed
          | some gservice =>
              let called : Service := { s with
                running := s.running
                invocations := s.invocations ++ [invocation]
                completions := s.completions ++
                  [⟨invocation, closureResult (handler invocation).unwinding, (handler invocation).response⟩] }
              let sent := runClosure gservice invocation (closureResult (handler invocation).unwinding)
                (handler invocation).response
              refine .inr ⟨invocation, called.settle sent, rfl, ?_, settle_running called sent,
                settle_responses called sent⟩
              have removed : (s.running ++ [invocation]).eraseIdx s.running.length = s.running := by
                rw [List.eraseIdx_append_of_length_le (Nat.le_refl _), Nat.sub_self]
                exact List.append_nil _
              simp [complete, descriptor, removed, called, sent]

/-! ### The decision list -/

/-- The documented answer to a valid request: its code and its payload. -/
def documentedAnswer (gservice : Option ServiceDescriptor) (handler : Invocation → Handled)
    (request : Invocation) : ResponseResult × Bytes :=
  match gservice with
  | none => (.notImplemented, [])
  | some gservice =>
      if request.methodIdx ≥ gservice.methodCount then (.notImplemented, [])
      else if gservice.parses request.methodIdx request.payload = false then (.requestParseError, [])
      else if (handler request).response.serialization.length > 1024 * 1024 then (.responseTooBig, [])
      else (if (handler request).unwinding then .unknownError else .ok, (handler request).response.serialization)

theorem answer_eq_documentedAnswer
    (cleared : ∀ g, gservice = some g → ∀ methodIdx, (g.empty methodIdx).serialization = [])
    (handler : Invocation → Handled) (request : Invocation) :
    (answer gservice handler request).1 = (documentedAnswer gservice handler request).1 ∧
      payloadOf (answer gservice handler request).2 = (documentedAnswer gservice handler request).2 := by
  cases gservice with
  | none => exact ⟨rfl, rfl⟩
  | some gservice =>
      have nothing : ∀ methodIdx, payloadOf (some (gservice.empty methodIdx)) = [] := cleared gservice rfl
      simp only [answer, documentedAnswer, isResponseProtoTooBig, ProtoMessage.byteSizeLong,
        MaxResponseProtoSize, decide_eq_true_eq, Bool.not_eq_true', ge_iff_le, gt_iff_lt]
      split
      next => exact ⟨rfl, rfl⟩
      next =>
          split
          next => exact ⟨rfl, nothing _⟩
          next =>
              split
              next => exact ⟨rfl, nothing _⟩
              next => exact ⟨rfl, rfl⟩

/-- Whatever a service receives and whatever its methods fill in, the buffer with which the future is settled
    is a response frame within the transfer limit. An invalid request is answered with `invalid_request` and
    the largest number; a valid one with its own number and by the documented decision list. The two
    assumptions on protobuf are that a serialization has the announced size, which is part of the model of a
    message, and that a new or cleared message serializes to nothing. -/
theorem processRequestAsync_answers (gservice : Option ServiceDescriptor) (handler : Invocation → Handled)
    (reqMsg : Buffer) (response : Bytes)
    (cleared : ∀ g, gservice = some g → ∀ methodIdx, (g.empty methodIdx).serialization = [])
    (settled : processRequestAsync gservice handler reqMsg = .ok response) :
    isResponseBufferValid (some response) = .ok true ∧ response.length ≤ MaxTransferMessageSize ∧
    (isRequestBufferValid reqMsg = .ok false →
      response = resFrame 0xFFFFFFFFFFFFFFFF .invalidRequest []) ∧
    (isRequestBufferValid reqMsg = .ok true → ∃ request, IsRequest reqMsg request ∧
      response = resFrame request.number (documentedAnswer gservice handler request).1
        (documentedAnswer gservice handler request).2) := by
  -- both kinds of requests are answered with some frame whose payload is at most 1 MiB
  have limits : ∀ number rc payload, payload.length ≤ MaxResponseProtoSize →
      isResponseBufferValid (some (resFrame number rc payload)) = .ok true ∧
        (resFrame number rc payload).length ≤ MaxTransferMessageSize := by
    intro number rc payload small
    rw [MaxResponseProtoSize] at small
    refine ⟨isResponseBufferValid_resFrame number (by omega) rc, ?_⟩
    rw [resFrame, length_frame, List.length_singleton, MaxTransferMessageSize, sHeaderBytesCount,
      sMessageTypeBytesCount, sSerializedProtoMessageSizeBytesCount, sMessageNumberBytesCount]
    omega
  cases isRequest_or_invalid reqMsg with
  | inl valid =>
      obtain ⟨request, isRequest⟩ := valid
      rw [processRequestAsync_of_isRequest isRequest] at settled
      obtain ⟨made, small⟩ := createTransferMsgRes_eq_ok settled
      obtain ⟨sameCode, samePayload⟩ := answer_eq_documentedAnswer cleared handler request
      rw [samePayload] at small
      rw [sameCode, samePayload] at made
      obtain ⟨isResponse, short⟩ := limits request.number (documentedAnswer gservice handler request).1
        (documentedAnswer gservice handler request).2 small
      rw [← made] at isResponse short
      refine ⟨isResponse, short, ?_, fun _ => ⟨request, isRequest, made⟩⟩
      intro invalid
      cases isRequest.valid.symm.trans invalid
  | inr invalid =>
      rw [processRequestAsync_of_invalid invalid] at settled
      cases settled
      obtain ⟨isResponse, short⟩ := limits (-1) .invalidRequest [] (Nat.zero_le _)
      refine ⟨isResponse, short, fun _ => rfl, ?_⟩
      intro valid
      cases valid.symm.trans invalid

/-- A service with one method whose input type takes every payload and whose output type has no required
    fields. -/
def permissive : ServiceDescriptor where
  methodCount := 1
  parses _ _ := true
  empty _ := { serialization := [], serializes := true }

/-- A request to that service, answered with three bytes. -/
theorem processRequestAsync_answers_permissive :
    processRequestAsync (some permissive)
        (fun _ => { response := { serialization := [1, 2, 3], serializes := true } }) (some (reqFrame 5 0 [9])) =
          .ok (resFrame 5 .ok [1, 2, 3]) ∧
      isResponseBufferValid (some (resFrame 5 .ok [1, 2, 3])) = .ok true ∧
      (resFrame 5 .ok [1, 2, 3]).length ≤ MaxTransferMessageSize := by
  have answers := processRequestAsync_answers (some permissive)
    (fun _ => { response := { serialization := [1, 2, 3], serializes := true } })
    (some (reqFrame 5 0 [9])) (resFrame 5 .ok [1, 2, 3])
    (by
      intro g same methodIdx
      cases same
      rfl)
    rfl
  exact ⟨rfl, answers.1, answers.2.1⟩

/-! ### When there is an answer -/

/-- The message that answers a request to a method of the service can be put into a frame: the response of the
    method where it is sent, and otherwise the empty response of the method's output type. -/
def Answerable (gservice : ServiceDescriptor) (handler : Invocation → Handled) (request : Invocation) : Prop :=
  if gservice.parses request.methodIdx request.payload ∧ isResponseProtoTooBig (handler request).response = false
  then (handler request).response.serializes = true
  else (gservice.empty request.methodIdx).serializes = true ∧
    isResponseProtoTooBig (gservice.empty request.methodIdx) = false

/-- The message of an answer fits in a frame exactly if the request is answerable. -/
theorem answer_accepted_iff (request : Invocation) :
    (∀ m, (answer gservice handler request).2 = some m →
      m.serializes = true ∧ isResponseProtoTooBig m = false) ↔
    ∀ g, gservice = some g → request.methodIdx < g.methodCount → Answerable g handler request := by
  cases gservice with
  | none => exact ⟨fun _ g absent => absurd absent nofun, fun _ m none => absurd none nofun⟩
  | some gservice =>
      simp only [answer, Option.some.injEq, forall_eq']
      by_cases implemented : gservice.methodCount ≤ request.methodIdx
      · have absent : ¬ request.methodIdx < gservice.methodCount := UInt32.not_lt.mpr implemented
        simp [implemented, absent]
      · have present : request.methodIdx < gservice.methodCount := UInt32.not_le.mp implemented
        simp only [implemented, present, if_false, true_implies, Answerable]
        cases gservice.parses request.methodIdx request.payload with
        | false => simp
        | true =>
            cases big : isResponseProtoTooBig (handler request).response with
            | false => simp [big]
            | true => simp

/-- The future is settled with a response exactly when, for a request to a method the service has, the message
    that would answer it can be serialized. -/
theorem processRequestAsync_settles_iff (gservice : Option ServiceDescriptor) (handler : Invocation → Handled)
    (reqMsg : Buffer) :
    (∃ response, processRequestAsync gservice handler reqMsg = .ok response) ↔
      ∀ g request, gservice = some g → IsRequest reqMsg request → request.methodIdx < g.methodCount →
        Answerable g handler request := by
  cases isRequest_or_invalid reqMsg with
  | inl valid =>
      obtain ⟨request, isRequest⟩ := valid
      rw [processRequestAsync_of_isRequest isRequest]
      constructor
      · rintro ⟨response, made⟩ g other present isOther implemented
        -- the getters read one request from a buffer
        have same : other = request := by
          obtain ⟨view, shown, read⟩ := isRequest.payload
          obtain ⟨otherView, otherShown, otherRead⟩ := isOther.payload
          obtain rfl := Except.ok.inj (shown.symm.trans otherShown)
          cases other
          cases request
          congr
          · exact Except.ok.inj (isOther.number.symm.trans isRequest.number)
          · exact Except.ok.inj (isOther.methodIdx.symm.trans isRequest.methodIdx)
          · exact Except.ok.inj (otherRead.symm.trans read)
        subst same
        exact (answer_accepted_iff other).mp (createTransferMsgRes_eq_ok_iff.mp made).1 g present implemented
      · intro answerable
        refine ⟨_, createTransferMsgRes_eq_ok_iff.mpr ⟨(answer_accepted_iff request).mpr ?_, rfl⟩⟩
        intro g present implemented
        exact answerable g request present isRequest implemented
  | inr invalid =>
      constructor
      · intro _ g request _ isRequest
        cases isRequest.valid.symm.trans invalid
      · intro _
        exact ⟨_, processRequestAsync_of_invalid invalid⟩

/-- A service whose method has an output type with a required field. It refuses every payload. -/
def requiringField : ServiceDescriptor where
  methodCount := 1
  parses _ _ := false
  empty _ := { serialization := [], serializes := false }

/-- A request that does not parse is not answered where the response type has a required field: the error
    answer serializes an empty response, which fails. -/
theorem parse_error_unanswered :
    ¬ ∀ gservice handler reqMsg, ∃ response, processRequestAsync gservice handler reqMsg = .ok response := by
  intro settles
  obtain ⟨response, settled⟩ := settles (some requiringField)
    (fun _ => { response := { serialization := [], serializes := true } }) (some (reqFrame 7 0 []))
  cases settled

end Service

end CommonRpc
