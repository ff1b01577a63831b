/-
Module: CommonRpc.Proofs.CallMethod
Purpose: The closure of a call is run exactly once, and the result it is run with. At any time one owner holds the
  closure or it has been run: the guard of `CallMethod`, the guard of the continuation, or neither. The result is
  that of the first check that failed, in the order of the source, and `ok` if none did.
Trusted boundary: none
-/
import CommonRpc.Core.CallMethod
import CommonRpc.Lib.Table
import CommonRpc.Proofs.Channel
import CommonRpc.Proofs.TransferMessageReading
import Mathlib.Data.List.Perm.Basic
import Mathlib.Logic.Relation

namespace CommonRpc

open Lib

/-! ### The verdict on a reply -/

/-- The payload of the buffer is found and parses. -/
def Reply.parses (reply : Reply) : Prop :=
  ∃ view bytes, getSerializedProtoMessage reply.buffer = .ok view ∧ view.bytes reply.buffer = .ok bytes ∧
    reply.parseFromArray bytes = true

open Classical in
/-- The error of the first check a reply to the call with the given number fails, or `ok`. -/
noncomputable def Reply.verdict (reply : Reply) (reqId : UInt64) : RequestResult :=
  if reply.rc ≠ .ok then reply.rc
  else if isResponseBufferValid reply.buffer ≠ .ok true then .invalidResponse
  else if getMsgNumberRes reply.buffer ≠ .ok reqId then .unknownError
  else if getMsgResponseCodeRes reply.buffer ≠ .ok .ok then .requestNotProcessed
  else if ¬ reply.parses then .responseParseError
  else .ok

/-- The result the continuation sets. -/
def Reply.result (reply : Reply) (reqId : UInt64) : RequestResult :=
  match Channel.readReply reqId reply.parseFromArray reply.rc reply.buffer with
  | .ok (result, _) => result
  | .error _ => .unknownError

/-- The bytes the continuation parses the response from. -/
def Reply.response (reply : Reply) (reqId : UInt64) : Option Bytes :=
  match Channel.readReply reqId reply.parseFromArray reply.rc reply.buffer with
  | .ok (_, response) => response
  | .error _ => none

/-- The continuation sets the verdict: the exceptions of the source stand for the checks without a code. -/
theorem Reply.result_eq_verdict (reply : Reply) (reqId : UInt64) : reply.result reqId = reply.verdict reqId := by
  obtain ⟨rc, buffer, parseFromArray⟩ := reply
  unfold result verdict
  by_cases success : rc = .ok
  · subst success
    obtain ⟨valid, answered⟩ := isBufferValid_total .res sResTrailerBytesCount buffer
    change isResponseBufferValid buffer = .ok valid at answered
    cases valid with
    | false =>
        simp [Channel.readReply, RequestResult.isSuccess, answered, bind, Except.bind, pure, Except.pure]
    | true =>
        obtain ⟨number, code, payload, padding, small, rfl⟩ := (isResponseBufferValid_iff buffer).mp answered
        have typed : getTransferMsgType (some (resFrame number code payload ++ padding)) = .ok .res := by
          rw [resFrame, frame_append, getTransferMsgType_frame]
        have numberRead := getMsgNumberRes_padded number padding small code
        have codeRead := getMsgResponseCodeRes_padded number padding small code
        have found : ∃ view, getSerializedProtoMessage (some (resFrame number code payload ++ padding)) =
            .ok view := by
          rw [resFrame, frame_append]
          exact ⟨_, getSerializedProtoMessage_view .res number _ small⟩
        obtain ⟨view, shown⟩ := found
        have read : view.bytes (some (resFrame number code payload ++ padding)) = .ok payload :=
          view_padded number padding small .res [code.toByte] shown
        have parses : Reply.parses ⟨.ok, some (resFrame number code payload ++ padding), parseFromArray⟩ ↔
            parseFromArray payload = true := by
          simp [Reply.parses, shown, read]
        simp only [Channel.readReply, RequestResult.isSuccess, answered, typed, numberRead, codeRead, shown,
          read, parses, bind, Except.bind, pure, Except.pure]
        by_cases same : number = reqId
        · by_cases ok : code = .ok
          · by_cases parsed : parseFromArray payload = true
            · simp [same, ok, parsed, ResponseResult.isFail, ResponseResult.isSuccess]
            · simp [same, ok, parsed, ResponseResult.isFail, ResponseResult.isSuccess]
          · simp [same, ok, ResponseResult.isFail, ResponseResult.isSuccess]
        · simp [same, throw, throwThe, MonadExceptOf.throw]
  · simp [Channel.readReply, RequestResult.isSuccess, success, pure, Except.pure]

/-- The verdict is `ok` exactly if every check passes. -/
theorem Reply.verdict_eq_ok_iff (reply : Reply) (reqId : UInt64) :
    reply.verdict reqId = .ok ↔
      reply.rc = .ok ∧ isResponseBufferValid reply.buffer = .ok true ∧
        getMsgNumberRes reply.buffer = .ok reqId ∧ getMsgResponseCodeRes reply.buffer = .ok .ok ∧
        reply.parses := by
  unfold verdict
  split
  next failed => simp [failed]
  next success =>
      split
      next invalid => simp [invalid]
      next valid =>
          split
          next other => simp [other]
          next same =>
              split
              next refused => simp [refused]
              next accepted =>
                  split
                  next garbled => simp [garbled]
                  next parsed => simp_all

/-! ### The owners of the closure -/

/-- How many closures a guard holds. -/
def holds : Option ClosureGuard → Nat
  | some guard => guard.closure.toNat
  | none => 0

theorem ClosureGuard.destroy_null (uncaught : Nat) (controller : RequestController) :
    ClosureGuard.destroy ⟨false⟩ uncaught controller = controller := rfl

/-- A closure whose result was never set is run with `unknown_error`, in flight exceptions or not. -/
theorem ClosureGuard.destroy_unset {controller : RequestController} (uncaught : Nat)
    (unset : controller.result = .unknownError) :
    ClosureGuard.destroy ⟨true⟩ uncaught controller =
      { controller with runs := controller.runs ++ [.unknownError] } := by
  simp only [ClosureGuard.destroy, RequestController.run, if_true, unset, ite_self]

/-- A closure is run with the result that was set, where no exception is in flight. -/
theorem ClosureGuard.destroy_quiet {controller : RequestController} {uncaught : Nat}
    (quiet : uncaught ≤ controller.uncaughtExceptions) :
    ClosureGuard.destroy ⟨true⟩ uncaught controller =
      { controller with runs := controller.runs ++ [controller.result] } := by
  simp only [ClosureGuard.destroy, RequestController.run, if_true, gt_iff_lt, Nat.not_lt.mpr quiet, if_false]

namespace MethodCall

variable {call call' : MethodCall}

/-- The result a call ends with, by what happened to it. -/
noncomputable def expected (call : MethodCall) : RequestResult :=
  match call.reqId, call.reply with
  | none, _ => .requestTooBig
  | some _, none => .unknownError
  | some reqId, some reply => reply.verdict reqId

/-- The thread of the call holds the guard with the closure. -/
def Starting (call : MethodCall) : Prop := call.stage = .chaining ∨ ∃ message, call.stage = .requesting message

/-- The invariant of a call. -/
structure Sound (call : MethodCall) : Prop where
  owned : holds call.cg + holds call.continuation + call.controller.runs.length = 1
  live : call.controller.misused = false
  ended : call.stage = .done → call.cg = none
  returning : call.stage = .returning → call.cg = some ⟨false⟩
  starting : call.Starting → call.cg = some ⟨true⟩ ∧ call.continued = false
  captured : ∀ guard, call.continuation = some guard → guard.closure = !call.continued
  unset : call.controller.runs = [] → call.controller.result = .unknownError
  results : ∀ result ∈ call.controller.runs, result = call.expected
  unanswered : call.continued = false → call.reply = none
  unparsed : call.reply = none → call.response = none
  refused : call.reqId = none → call.stage = .done ∧ call.continuation = none ∧ call.sent = none
  tooBig : isRequestProtoTooBig call.request = true ↔ call.reqId = none

namespace Sound

/-- A guard that holds the closure is the only owner, and the closure was not run. -/
theorem alone (sound : call.Sound) (holder : call.cg = some ⟨true⟩) :
    holds call.continuation = 0 ∧ call.controller.runs = [] := by
  have owned := sound.owned
  rw [holder] at owned
  simp only [holds, Bool.toNat_true] at owned ⊢
  exact ⟨by omega, List.length_eq_zero_iff.mp (by omega)⟩

theorem captured_alone (sound : call.Sound) (holder : call.continuation = some ⟨true⟩) :
    holds call.cg = 0 ∧ call.controller.runs = [] := by
  have owned := sound.owned
  rw [holder] at owned
  simp only [holds, Bool.toNat_true] at owned ⊢
  exact ⟨by omega, List.length_eq_zero_iff.mp (by omega)⟩

/-- A call that has its number and no reply ends with `unknown_error`. -/
theorem expected_unanswered (sound : call.Sound) (numbered : call.reqId ≠ none)
    (unrun : call.continued = false) : call.expected = .unknownError := by
  have none := sound.unanswered unrun
  unfold expected
  cases number : call.reqId with
  | none => exact absurd number numbered
  | some reqId => rw [none]

/-- The thread of a call has a number as long as it holds the closure. -/
theorem starting_numbered (sound : call.Sound) (starting : call.Starting) : call.reqId ≠ none := by
  intro unnumbered
  have ended := (sound.refused unnumbered).1
  rcases starting with chaining | ⟨message, requesting⟩
  · rw [chaining] at ended
    cases ended
  · rw [requesting] at ended
    cases ended

/-- A call whose closure was run with the expected result, and whose guards are left without it. -/
theorem of_run (result : RequestResult) (runs : call.controller.runs = [result]) (right : result = call.expected)
    (live : call.controller.misused = false)
    (thread : call.stage = .done ∧ call.cg = none ∨ call.stage = .returning ∧ call.cg = some ⟨false⟩)
    (captured : ∀ guard, call.continuation = some guard → guard.closure = false ∧ call.continued = true)
    (unanswered : call.continued = false → call.reply = none) (unparsed : call.reply = none → call.response = none)
    (refused : call.reqId = none → call.stage = .done ∧ call.continuation = none ∧ call.sent = none)
    (tooBig : isRequestProtoTooBig call.request = true ↔ call.reqId = none) : call.Sound := by
  have released : holds call.cg = 0 := by
    rcases thread with ⟨-, gone⟩ | ⟨-, null⟩
    · rw [gone]
      rfl
    · rw [null]
      rfl
  have given : holds call.continuation = 0 := by
    cases there : call.continuation with
    | none => rfl
    | some guard => exact congrArg Bool.toNat (captured guard there).1
  constructor
  · rw [released, given, runs]
    rfl
  · exact live
  · intro ended
    rcases thread with ⟨-, gone⟩ | ⟨returning, -⟩
    · exact gone
    · exact absurd (ended.symm.trans returning) nofun
  · intro returning
    rcases thread with ⟨ended, -⟩ | ⟨-, null⟩
    · exact absurd (ended.symm.trans returning) nofun
    · exact null
  · intro starting
    rcases thread with ⟨ended, -⟩ | ⟨returning, -⟩
    · rcases starting with chaining | ⟨message, requesting⟩
      · exact absurd (ended.symm.trans chaining) nofun
      · exact absurd (ended.symm.trans requesting) nofun
    · rcases starting with chaining | ⟨message, requesting⟩
      · exact absurd (returning.symm.trans chaining) nofun
      · exact absurd (returning.symm.trans requesting) nofun
  · intro guard there
    obtain ⟨null, continued⟩ := captured guard there
    rw [null, continued]
    rfl
  · rw [runs]
    exact nofun
  · rw [runs]
    intro other member
    rw [List.mem_singleton.mp member]
    exact right
  · exact unanswered
  · exact unparsed
  · exact refused
  · exact tooBig

/-- Once the continuation has the closure, the thread of the call is at its end or past it. -/
theorem thread_of_captured (sound : call.Sound) (there : call.continuation = some ⟨true⟩) :
    call.stage = .done ∧ call.cg = none ∨ call.stage = .returning ∧ call.cg = some ⟨false⟩ := by
  have elsewhere := (sound.captured_alone there).1
  have notStarting : ¬ call.Starting := by
    intro starting
    rw [(sound.starting starting).1] at elsewhere
    cases elsewhere
  cases stage : call.stage with
  | requesting message => exact absurd (.inr ⟨message, stage⟩) notStarting
  | chaining => exact absurd (.inl stage) notStarting
  | returning => exact .inr ⟨rfl, sound.returning stage⟩
  | done => exact .inl ⟨rfl, sound.ended stage⟩

/-- A continuation belongs to a call with a number, and it was run unless it holds the closure. -/
theorem continuation_facts (sound : call.Sound) {closure : Bool} (there : call.continuation = some ⟨closure⟩) :
    call.reqId ≠ none ∧ call.continued = !closure := by
  constructor
  · intro unnumbered
    rw [(sound.refused unnumbered).2.1] at there
    cases there
  · have full : closure = !call.continued := sound.captured _ there
    rw [full, Bool.not_not]

end Sound

/-! ### The steps of a call -/

/-- `Run` with `unknown_error`, as the first `Run` of the call. -/
def failedController (call : MethodCall) : RequestController := { call.controller with runs := [.unknownError] }

/-- What a step of a call can do. -/
inductive Move (call : MethodCall) : MethodCall → Prop where
  | requested (message : Bytes) (stage : call.stage = .requesting message) :
      Move call { call with sent := some message, stage := .chaining }
  | failed (sent : Option Bytes) (starting : call.Starting) :
      Move call { call with sent := sent, stage := .done, cg := none, controller := call.failedController }
  | chained (stage : call.stage = .chaining) :
      Move call { call with stage := .returning, cg := some ⟨false⟩, continuation := some ⟨true⟩ }
  | finished (stage : call.stage = .returning) : Move call { call with stage := .done, cg := none }
  | replied (reqId : UInt64) (reply : Reply) (there : call.continuation = some ⟨true⟩)
      (number : call.reqId = some reqId) :
      Move call { call with
        continued := true
        continuation := some ⟨false⟩
        reply := some reply
        response := reply.response reqId
        controller := { call.controller with result := reply.result reqId, runs := [reply.result reqId] } }
  | unlocked (there : call.continuation = some ⟨true⟩) :
      Move call
        { call with continued := true, continuation := some ⟨false⟩, controller := call.failedController }
  | dropped (there : call.continuation = some ⟨true⟩) :
      Move call { call with continuation := none, controller := call.failedController }
  | discarded (there : call.continuation = some ⟨false⟩) : Move call { call with continuation := none }

/-- A guard that holds the closure of a call without a result fails the call. -/
theorem Sound.destroy_unset (sound : call.Sound) (unused : call.controller.runs = []) (uncaught : Nat) :
    ClosureGuard.destroy ⟨true⟩ uncaught call.controller = call.failedController := by
  rw [ClosureGuard.destroy_unset uncaught (sound.unset unused), unused]
  rfl

theorem requestAsync_move {throws : Bool} (sound : call.Sound)
    (stepped : call.requestAsync throws = some call') : Move call call' := by
  unfold MethodCall.requestAsync at stepped
  split at stepped
  next message cg stage guard =>
      have starting : call.Starting := .inr ⟨message, stage⟩
      have holder := (sound.starting starting).1
      obtain rfl : cg = ⟨true⟩ := Option.some.inj (guard.symm.trans holder)
      simp only at stepped
      split at stepped
      next =>
          cases stepped
          rw [leave, sound.destroy_unset (sound.alone holder).2]
          exact .failed (some message) starting
      next =>
          cases stepped
          exact .requested message stage
  next => cases stepped

theorem chain_move {throws : Bool} (sound : call.Sound) (stepped : call.chain throws = some call') :
    Move call call' := by
  unfold MethodCall.chain at stepped
  split at stepped
  next cg stage guard =>
      have starting : call.Starting := .inl stage
      have holder := (sound.starting starting).1
      obtain rfl : cg = ⟨true⟩ := Option.some.inj (guard.symm.trans holder)
      simp only [ClosureGuard.move] at stepped
      split at stepped
      next =>
          -- the lambda is destroyed with the closure, and the guard on the stack has nothing left to run
          cases stepped
          rw [leave, ClosureGuard.destroy_null, sound.destroy_unset (sound.alone holder).2]
          exact .failed call.sent starting
      next =>
          cases stepped
          exact .chained stage
  next => cases stepped

theorem finish_move (sound : call.Sound) (stepped : call.finish = some call') : Move call call' := by
  unfold MethodCall.finish at stepped
  split at stepped
  next cg stage guard =>
      obtain rfl : cg = ⟨false⟩ := Option.some.inj (guard.symm.trans (sound.returning stage))
      cases stepped
      exact .finished stage
  next => cases stepped

/-- The result that `withReply` sets, and what it leaves alone. -/
theorem withReply_eq (call : MethodCall) (reqId : UInt64) (reply : Reply) (unparsed : call.response = none) :
    call.withReply reqId reply =
      { call with
        reply := some reply
        response := reply.response reqId
        controller := call.controller.setResult (reply.result reqId) } := by
  unfold MethodCall.withReply Reply.result Reply.response
  cases Channel.readReply reqId reply.parseFromArray reply.rc reply.buffer with
  | ok outcome => rfl
  | error thrown => simp only [unparsed]

theorem resume_move {reply : Option Reply} (sound : call.Sound) (stepped : call.resume reply = some call') :
    Move call call' := by
  unfold MethodCall.resume at stepped
  split at stepped
  next cg reqId there unrun number =>
      obtain ⟨closure⟩ := cg
      have full := (sound.continuation_facts there).2
      rw [unrun] at full
      obtain rfl : closure = true := by
        cases closure with
        | true => rfl
        | false => cases full
      have unused := (sound.captured_alone there).2
      have unparsed := sound.unparsed (sound.unanswered unrun)
      simp only [ClosureGuard.move] at stepped
      split at stepped
      next reply =>
          rw [withReply_eq { call with continued := true, continuation := some ⟨false⟩ } reqId reply unparsed,
            ClosureGuard.destroy_quiet (Nat.zero_le _)] at stepped
          cases stepped
          have ends : { call.controller.setResult (reply.result reqId) with
              runs := (call.controller.setResult (reply.result reqId)).runs ++ [reply.result reqId] } =
                { call.controller with result := reply.result reqId, runs := [reply.result reqId] } := by
            simp [RequestController.setResult, unused]
          have replied := Move.replied reqId reply there number
          rw [← ends] at replied
          exact replied
      next =>
          rw [sound.destroy_unset unused] at stepped
          cases stepped
          exact .unlocked there
  next => cases stepped

theorem drop_move {uncaught : Nat} (sound : call.Sound) (stepped : call.drop uncaught = some call') :
    Move call call' := by
  unfold MethodCall.drop at stepped
  split at stepped
  next cg there =>
      obtain ⟨closure⟩ := cg
      cases stepped
      cases closure with
      | true =>
          rw [sound.destroy_unset (sound.captured_alone there).2]
          exact .dropped there
      | false => exact .discarded there
  next => cases stepped

/-- The steps of a call keep its invariant. -/
theorem Move.sound (move : Move call call') (sound : call.Sound) : call'.Sound := by
  cases move with
  | requested message stage =>
      have starting : call.Starting := .inr ⟨message, stage⟩
      exact { sound with
        ended := nofun
        returning := nofun
        starting := fun _ => sound.starting starting
        refused := fun unnumbered => absurd unnumbered (sound.starting_numbered starting) }
  | failed sent starting =>
      obtain ⟨holder, unrun⟩ := sound.starting starting
      have numbered := sound.starting_numbered starting
      refine Sound.of_run .unknownError rfl (sound.expected_unanswered numbered unrun).symm sound.live
        (.inl ⟨rfl, rfl⟩) ?_ sound.unanswered sound.unparsed (fun unnumbered => absurd unnumbered numbered)
        sound.tooBig
      intro guard there
      -- a continuation would hold the closure, which is still on the stack
      have full := sound.captured guard there
      have uncaptured := (sound.alone holder).1
      change call.continuation = some guard at there
      rw [there, holds, full, unrun] at uncaptured
      cases uncaptured
  | chained stage =>
      have starting : call.Starting := .inl stage
      obtain ⟨holder, unrun⟩ := sound.starting starting
      exact { sound with
        owned := by
          change holds (some ⟨false⟩) + holds (some ⟨true⟩) + call.controller.runs.length = 1
          rw [(sound.alone holder).2]
          rfl
        ended := nofun
        returning := fun _ => rfl
        starting := nofun
        captured := by
          intro guard same
          cases same
          rw [unrun]
          rfl
        refused := fun unnumbered => absurd unnumbered (sound.starting_numbered starting) }
  | finished stage =>
      have owned := sound.owned
      rw [sound.returning stage] at owned
      exact { sound with
        owned := owned
        ended := fun _ => rfl
        returning := nofun
        starting := nofun
        refused := fun unnumbered => ⟨rfl, (sound.refused unnumbered).2⟩ }
  | replied reqId reply there number =>
      refine Sound.of_run (reply.result reqId) rfl ?_ sound.live (sound.thread_of_captured there) ?_ nofun nofun
        (fun unnumbered => absurd unnumbered (sound.continuation_facts there).1) sound.tooBig
      · rw [reply.result_eq_verdict]
        simp only [expected, number]
      · intro guard same
        cases same
        exact ⟨rfl, rfl⟩
  | unlocked there =>
      obtain ⟨numbered, unrun⟩ := sound.continuation_facts there
      refine Sound.of_run .unknownError rfl (sound.expected_unanswered numbered unrun).symm sound.live
        (sound.thread_of_captured there) ?_ nofun sound.unparsed (fun unnumbered => absurd unnumbered numbered)
        sound.tooBig
      intro guard same
      cases same
      exact ⟨rfl, rfl⟩
  | dropped there =>
      obtain ⟨numbered, unrun⟩ := sound.continuation_facts there
      exact Sound.of_run .unknownError rfl (sound.expected_unanswered numbered unrun).symm sound.live
        (sound.thread_of_captured there) nofun sound.unanswered sound.unparsed
        (fun unnumbered => absurd unnumbered numbered) sound.tooBig
  | discarded there =>
      have owned := sound.owned
      rw [there] at owned
      exact { sound with
        owned := owned
        captured := nofun
        refused := fun unnumbered => absurd unnumbered (sound.continuation_facts there).1 }

/-- A call keeps its number. -/
theorem Move.reqId_eq (move : Move call call') : call'.reqId = call.reqId := by
  cases move with
  | _ => rfl

/-- What the caller gave a call, and what its continuation was given. -/
def told (call : MethodCall) : UInt32 × ProtoMessage × Option Reply := (call.methodIdx, call.request, call.reply)

theorem callMethod_told (nextReqId : UInt64) (methodIdx : UInt32) (request : ProtoMessage) (uncaught : Nat) :
    (callMethod nextReqId methodIdx request uncaught).2.told = (methodIdx, request, none) := by
  unfold callMethod
  simp only
  split
  next => rfl
  next =>
      split
      next => rfl
      next => rfl

theorem requestAsync_told {throws : Bool} (stepped : call.requestAsync throws = some call') :
    call'.told = call.told := by
  unfold requestAsync at stepped
  split at stepped
  next =>
      simp only at stepped
      split at stepped
      · cases stepped
        rfl
      · cases stepped
        rfl
  next => cases stepped

theorem chain_told {throws : Bool} (stepped : call.chain throws = some call') : call'.told = call.told := by
  unfold chain at stepped
  split at stepped
  next =>
      simp only [ClosureGuard.move] at stepped
      split at stepped
      · cases stepped
        rfl
      · cases stepped
        rfl
  next => cases stepped

theorem finish_told (stepped : call.finish = some call') : call'.told = call.told := by
  unfold finish at stepped
  split at stepped
  next =>
      cases stepped
      rfl
  next => cases stepped

theorem drop_told {uncaught : Nat} (stepped : call.drop uncaught = some call') : call'.told = call.told := by
  unfold MethodCall.drop at stepped
  split at stepped
  next =>
      cases stepped
      rfl
  next => cases stepped

/-- Only the first run of the continuation is given a reply. -/
theorem resume_told {reply : Option Reply} (sound : call.Sound) (stepped : call.resume reply = some call') :
    call.reply = none ∧ call'.told = (call.methodIdx, call.request, reply) := by
  unfold resume at stepped
  split at stepped
  next cg reqId there unrun number =>
      have unanswered := sound.unanswered unrun
      refine ⟨unanswered, ?_⟩
      simp only [ClosureGuard.move] at stepped
      split at stepped
      next reply =>
          rw [withReply_eq { call with continued := true, continuation := some ⟨false⟩ } reqId reply
            (sound.unparsed unanswered)] at stepped
          cases stepped
          rfl
      next =>
          cases stepped
          simp [told, unanswered]
  next => cases stepped

/-- A new call. One that is too big is over at once and has no number. -/
theorem callMethod_sound (nextReqId : UInt64) (methodIdx : UInt32) (request : ProtoMessage) (uncaught : Nat) :
    (callMethod nextReqId methodIdx request uncaught).2.Sound := by
  unfold callMethod
  simp only
  split
  next big =>
      have ends : ClosureGuard.destroy ⟨true⟩ uncaught
          (RequestController.setResult { uncaughtExceptions := uncaught } .requestTooBig) =
            { result := .requestTooBig, uncaughtExceptions := uncaught, runs := [.requestTooBig] } :=
        ClosureGuard.destroy_quiet (Nat.le_refl _)
      exact Sound.of_run .requestTooBig (congrArg RequestController.runs ends) rfl
        (congrArg RequestController.misused ends) (.inl ⟨rfl, rfl⟩) nofun (fun _ => rfl) (fun _ => rfl)
        (fun _ => ⟨rfl, rfl, rfl⟩) ⟨fun _ => rfl, fun _ => big⟩
  next fits =>
      have tooBig : isRequestProtoTooBig request = true ↔ some nextReqId = none :=
        ⟨fun big => absurd big fits, nofun⟩
      split
      next =>
          have ends : ClosureGuard.destroy ⟨true⟩ (uncaught + 1) { uncaughtExceptions := uncaught } =
              { uncaughtExceptions := uncaught, runs := [.unknownError] } :=
            ClosureGuard.destroy_unset _ rfl
          exact Sound.of_run .unknownError (congrArg RequestController.runs ends) rfl
            (congrArg RequestController.misused ends) (.inl ⟨rfl, rfl⟩) nofun (fun _ => rfl) (fun _ => rfl) nofun
            tooBig
      next message made =>
          exact
            { owned := rfl
              live := rfl
              ended := nofun
              returning := nofun
              starting := fun _ => ⟨rfl, rfl⟩
              captured := nofun
              unset := fun _ => rfl
              results := nofun
              unanswered := fun _ => rfl
              unparsed := fun _ => rfl
              refused := nofun
              tooBig := tooBig }

/-- A call that is too big leaves the next number alone, and any other takes it. -/
theorem callMethod_number (nextReqId : UInt64) (methodIdx : UInt32) (request : ProtoMessage) (uncaught : Nat) :
    (callMethod nextReqId methodIdx request uncaught).2.reqId = none ∧
        (callMethod nextReqId methodIdx request uncaught).1 = nextReqId ∨
      (callMethod nextReqId methodIdx request uncaught).2.reqId = some nextReqId ∧
        (callMethod nextReqId methodIdx request uncaught).1 = nextReqId + 1 := by
  unfold callMethod
  simp only
  split
  next => exact .inl ⟨rfl, rfl⟩
  next =>
      split
      next => exact .inr ⟨rfl, rfl⟩
      next => exact .inr ⟨rfl, rfl⟩

end MethodCall

/-! ### The calls of a channel -/

namespace MethodCalls

variable {s s' : MethodCalls}

/-- What a step can do: a new call is added, or one call takes a step of its own. -/
inductive Move (s s' : MethodCalls) : Prop where
  | call (methodIdx : UInt32) (request : ProtoMessage) (uncaught : Nat)
      (next : s'.nextReqId = (MethodCall.callMethod s.nextReqId methodIdx request uncaught).1)
      (calls : s'.calls = s.calls ++ [(MethodCall.callMethod s.nextReqId methodIdx request uncaught).2])
  | update (i : Nat) (call call' : MethodCall) (found : s.calls[i]? = some call) (next : s'.nextReqId = s.nextReqId)
      (calls : s'.calls = s.calls.set i call') (moved : MethodCall.Move call call')

theorem update_move {i : Nat} {f : MethodCall → Option MethodCall} (stepped : s.update i f = some s')
    (sound : ∀ (i : Nat) call, s.calls[i]? = some call → call.Sound)
    (moves : ∀ {call call'}, call.Sound → f call = some call' → MethodCall.Move call call') : Move s s' := by
  obtain ⟨call, found, stepped⟩ := Option.bind_eq_some_iff.mp stepped
  obtain ⟨call', moved, stepped⟩ := Option.bind_eq_some_iff.mp stepped
  cases stepped
  exact .update i call call' found rfl rfl (moves (sound i call found) moved)

theorem move_of_step {e : Event} (sound : ∀ (i : Nat) call, s.calls[i]? = some call → call.Sound)
    (stepped : machine.step s e = some s') : Move s s' := by
  cases e with
  | call methodIdx request uncaught =>
      cases stepped
      exact .call methodIdx request uncaught rfl rfl
  | requestAsync i throws => exact update_move stepped sound MethodCall.requestAsync_move
  | chain i throws => exact update_move stepped sound MethodCall.chain_move
  | finish i => exact update_move stepped sound MethodCall.finish_move
  | resume i reply => exact update_move stepped sound MethodCall.resume_move
  | drop i uncaught => exact update_move stepped sound MethodCall.drop_move

/-- The numbers the calls were given, in the order of the calls. -/
def numbers (s : MethodCalls) : List UInt64 := s.calls.flatMap fun call => call.reqId.toList

/-- The invariant of the calls: the numbers are 0, 1, 2 and so on, without a gap for the calls that were refused. -/
structure Sound (s : MethodCalls) : Prop where
  each : ∀ (i : Nat) call, s.calls[i]? = some call → call.Sound
  next : s.nextReqId = UInt64.ofNat s.numbers.length
  numbered : s.numbers = (List.range s.numbers.length).map UInt64.ofNat

theorem Sound.step {e : Event} (sound : s.Sound) (stepped : machine.step s e = some s') : s'.Sound := by
  cases move_of_step sound.each stepped with
  | call methodIdx request uncaught next calls =>
      have numbers : s'.numbers = s.numbers ++
          (MethodCall.callMethod s.nextReqId methodIdx request uncaught).2.reqId.toList := by
        rw [MethodCalls.numbers, calls, List.flatMap_append]
        simp [MethodCalls.numbers]
      have each : ∀ (i : Nat) call, s'.calls[i]? = some call → call.Sound := by
        intro i call found
        rw [calls] at found
        cases Table.push_cases found with
        | inl old => exact sound.each i call old
        | inr new =>
            rw [new.2]
            exact MethodCall.callMethod_sound s.nextReqId methodIdx request uncaught
      cases MethodCall.callMethod_number s.nextReqId methodIdx request uncaught with
      | inl refused =>
          rw [refused.1, Option.toList_none, List.append_nil] at numbers
          exact ⟨each, by rw [next, refused.2, sound.next, numbers], by rw [numbers]; exact sound.numbered⟩
      | inr given =>
          rw [given.1, Option.toList_some] at numbers
          refine ⟨each, ?_, ?_⟩
          · rw [next, given.2, sound.next, numbers, List.length_append, List.length_singleton, UInt64.ofNat_add]
            rfl
          · rw [numbers, List.length_append, List.length_singleton, List.range_succ, List.map_append,
              ← sound.numbered, List.map_singleton, sound.next]
  | update i call call' found next calls moved =>
      have same : s'.numbers = s.numbers := by
        obtain ⟨before, after, old, new⟩ := Table.flatMap_set found call' fun call => call.reqId.toList
        rw [numbers, numbers, calls, old, new, moved.reqId_eq]
      refine ⟨?_, by rw [next, same, sound.next], by rw [same]; exact sound.numbered⟩
      intro j other there
      rw [calls] at there
      cases Table.set_cases found there with
      | inl changed =>
          rw [changed.2]
          exact moved.sound (sound.each i call found)
      | inr kept => exact sound.each j other kept.2

theorem sound_of_run {es : List Event} (ran : machine.run {} es = some s) : s.Sound := by
  refine Machine.run_invariant (P := Sound) Sound.step ⟨?_, rfl, rfl⟩ ran
  intro i call found
  cases found

/-- The calls that a run makes. -/
def made (es : List Event) : List (UInt32 × ProtoMessage) :=
  es.filterMap fun
    | .call methodIdx request _ => some (methodIdx, request)
    | _ => none

/-- What the continuation of a call is given in a run, if it is run with a value. -/
def replyTo (es : List Event) (i : Nat) : Option Reply :=
  es.findSome? fun
    | .resume j reply => if j = i then reply else none
    | _ => none

/-- The calls are those the run made, and their replies those it gave. -/
def Told (es : List Event) (s : MethodCalls) : Prop :=
  (s.calls.map fun call => (call.methodIdx, call.request)) = made es ∧
    ∀ i, s.calls[i]?.bind MethodCall.reply = replyTo es i

/-- A step of one call, which is given `reply` if it had none. -/
theorem Told.update {es : List Event} {e : Event} {i : Nat} {f : MethodCall → Option MethodCall}
    (reply : Option Reply) (before : Told es s) (stepped : s.update i f = some s') (noCall : made [e] = [])
    (given : ∀ j, replyTo [e] j = if i = j then reply else none)
    (told : ∀ {call call'}, s.calls[i]? = some call → f call = some call' →
      call'.told = (call.methodIdx, call.request, call.reply.or reply)) : Told (es ++ [e]) s' := by
  obtain ⟨call, found, stepped⟩ := Option.bind_eq_some_iff.mp stepped
  obtain ⟨call', moved, stepped⟩ := Option.bind_eq_some_iff.mp stepped
  cases stepped
  obtain ⟨sameMethod, sameRequest, isReply⟩ : call'.methodIdx = call.methodIdx ∧ call'.request = call.request ∧
      call'.reply = call.reply.or reply := by simpa [MethodCall.told] using told found moved
  refine ⟨?_, fun j => ?_⟩
  · obtain ⟨inside, rfl⟩ := List.getElem?_eq_some_iff.mp found
    rw [made, List.filterMap_append, ← made, ← made, noCall, List.append_nil, ← before.1, List.map_set,
      sameMethod, sameRequest, ← List.map_set (f := fun call : MethodCall => (call.methodIdx, call.request)),
      List.set_getElem_self]
  · have earlier := before.2 j
    rw [replyTo, List.findSome?_append, ← replyTo, ← replyTo, given, ← earlier]
    by_cases same : i = j
    · subst same
      simp [Table.set_self found, found, isReply]
    · simp [List.getElem?_set_ne same, same]

theorem Told.step {es : List Event} {e : Event} (before : Told es s) (sound : s.Sound)
    (stepped : machine.step s e = some s') : Told (es ++ [e]) s' := by
  have silent {i : Nat} {f : MethodCall → Option MethodCall} (updated : s.update i f = some s')
      (noCall : made [e] = []) (noReply : ∀ j, replyTo [e] j = none)
      (same : ∀ {call call'}, f call = some call' → call'.told = call.told) : Told (es ++ [e]) s' := by
    refine before.update none updated noCall (by simp [noReply]) fun _ moved => ?_
    rw [same moved, Option.or_none]
    rfl
  cases e with
  | call methodIdx request uncaught =>
      have calls : s'.calls = s.calls ++ [(MethodCall.callMethod s.nextReqId methodIdx request uncaught).2] :=
        (congrArg MethodCalls.calls (Option.some.inj stepped)).symm
      have new := MethodCall.callMethod_told s.nextReqId methodIdx request uncaught
      generalize (MethodCall.callMethod s.nextReqId methodIdx request uncaught).2 = call at calls new
      obtain ⟨isMethod, isRequest, noReply⟩ :
          call.methodIdx = methodIdx ∧ call.request = request ∧ call.reply = none := by
        simpa [MethodCall.told] using new
      rw [Told, calls]
      refine ⟨?_, fun j => ?_⟩
      · rw [made, List.filterMap_append, ← made, ← before.1]
        simp [isMethod, isRequest]
      · have earlier := before.2 j
        rw [replyTo, List.findSome?_append, ← replyTo, ← replyTo, ← earlier]
        rcases Nat.lt_trichotomy j s.calls.length with old | rfl | beyond
        · simp [List.getElem?_append_left old, replyTo]
        · simp [noReply, replyTo]
        · have gone : (s.calls ++ [call])[j]? = none :=
            List.getElem?_eq_none (by rw [List.length_append]; exact beyond)
          simp [gone, List.getElem?_eq_none beyond.le, replyTo]
  | requestAsync i throws => exact silent stepped rfl (fun _ => rfl) MethodCall.requestAsync_told
  | chain i throws => exact silent stepped rfl (fun _ => rfl) MethodCall.chain_told
  | finish i => exact silent stepped rfl (fun _ => rfl) MethodCall.finish_told
  | drop i uncaught => exact silent stepped rfl (fun _ => rfl) MethodCall.drop_told
  | resume i reply =>
      refine before.update reply stepped rfl (fun j => ?_) fun found moved => ?_
      · by_cases same : i = j <;> cases reply <;> simp [replyTo, same]
      · obtain ⟨unanswered, isTold⟩ := MethodCall.resume_told (sound.each i _ found) moved
        rw [isTold, unanswered, Option.none_or]

theorem told_of_run {es : List Event} (ran : machine.run {} es = some s) : Told es s :=
  Machine.run_induction (P := Told) ⟨rfl, fun _ => rfl⟩
    (fun ran before stepped => before.step (sound_of_run ran) stepped) ran

/-- Every call of every run: its closure is run at most once, and exactly once when the thread of the call has
    left `CallMethod` and the future is done with its continuation; the controller is not touched after that. The
    result it is run with is that of the first check that failed, or `ok`, which takes a reply of the connection
    with the code `ok` whose buffer is a valid response frame with the number of the call, the code `ok` and a
    payload that parses. A request that is too big is not sent and takes no number. The calls are those the run
    makes, and the reply to a call is what its continuation is given in the run. -/
theorem callMethod_completes {es : List Event} {s : MethodCalls} (ran : machine.run {} es = some s) :
    (∀ (i : Nat) call, s.calls[i]? = some call →
      call.controller.runs.length ≤ 1 ∧
      (call.isOver = true → call.controller.runs.length = 1) ∧
      call.controller.misused = false ∧
      call.reply = replyTo es i ∧
      (∀ result ∈ call.controller.runs, result = call.expected ∧
        (result = .ok ↔ ∃ reqId reply, call.reqId = some reqId ∧ replyTo es i = some reply ∧ reply.rc = .ok ∧
          isResponseBufferValid reply.buffer = .ok true ∧ getMsgNumberRes reply.buffer = .ok reqId ∧
          getMsgResponseCodeRes reply.buffer = .ok .ok ∧ reply.parses)) ∧
      (isRequestProtoTooBig call.request = true → call.sent = none ∧ call.reqId = none)) ∧
    (s.calls.map fun call => (call.methodIdx, call.request)) = made es ∧
    s.numbers = (List.range s.numbers.length).map UInt64.ofNat ∧
    s.nextReqId = UInt64.ofNat s.numbers.length := by
  have sound := sound_of_run ran
  have told := told_of_run ran
  refine ⟨?_, told.1, sound.numbered, sound.next⟩
  intro i call found
  have facts := sound.each i call found
  have isReply : call.reply = replyTo es i := by
    rw [← told.2 i, found]
    rfl
  refine ⟨?_, ?_, facts.live, isReply, ?_, ?_⟩
  · have owned := facts.owned
    omega
  · intro ended
    simp only [MethodCall.isOver, Bool.and_eq_true, decide_eq_true_eq, Option.isNone_iff_eq_none] at ended
    have owned := facts.owned
    rw [facts.ended ended.1, ended.2] at owned
    simpa [holds] using owned
  · intro result member
    have right := facts.results result member
    refine ⟨right, ?_⟩
    rw [right, MethodCall.expected, ← isReply]
    cases number : call.reqId with
    | none => simp
    | some reqId =>
        cases replied : call.reply with
        | none => simp
        | some reply => simp [reply.verdict_eq_ok_iff reqId]
  · intro big
    have unnumbered := facts.tooBig.mp big
    exact ⟨(facts.refused unnumbered).2.2, unnumbered⟩

/-- A call whose continuation runs before `CallMethod` returns, with a perfect reply; one whose `request_async`
    throws; and one whose reply says that the request was not processed. -/
theorem callMethod_completes_example :
    ∃ s, machine.run {}
        [.call 0 ⟨[1], true⟩ 0, .call 3 ⟨[2], true⟩ 1, .call 4 ⟨[3], true⟩ 0, .requestAsync 1 true,
          .requestAsync 0 false, .chain 0 false,
          .resume 0 (some ⟨.ok, some (resFrame 0 .ok [7]), fun _ => true⟩), .finish 0, .drop 0 0,
          .requestAsync 2 false, .chain 2 false, .finish 2,
          .resume 2 (some ⟨.ok, some (resFrame 2 .unknownError []), fun _ => true⟩), .drop 2 0] = some s ∧
      (s.calls.map fun call => call.controller.runs) = [[.ok], [.unknownError], [.requestNotProcessed]] ∧
      ∀ (i : Nat) call, s.calls[i]? = some call → call.controller.runs.length ≤ 1 := by
  refine Machine.exists_run ⟨_, rfl, rfl⟩ fun ran _ => ?_
  exact fun i call found => ((callMethod_completes ran).1 i call found).1

/-! ### The channel of a peer -/

/-- The calls of a channel that were given a number. -/
def callOf (call : MethodCall) : List Call :=
  call.reqId.toList.map fun reqId => ⟨reqId, call.methodIdx, call.request.serialization⟩

/-- The frames that wait for `request_async`. -/
def pendingOf (call : MethodCall) : List (UInt64 × Bytes) :=
  match call.stage with
  | .requesting message => call.reqId.toList.map fun reqId => (reqId, message)
  | _ => []

/-- The reports of the calls whose closure was run. -/
def reportsOf (call : MethodCall) : List Report :=
  call.controller.runs.map fun result => ⟨call.reqId, result, call.response⟩

/-- The calls as the model of a channel keeps them, which has no order between the frames that wait or between
    the reports. -/
structure Simulates (s : MethodCalls) (ch : Channel) : Prop where
  next : ch.nextReqId = s.nextReqId
  calls : ch.calls = s.calls.flatMap callOf
  pending : ch.pending.Perm (s.calls.flatMap pendingOf)
  reports : ch.reports.Perm (s.calls.flatMap reportsOf)

/-- What the model of a channel can do. -/
inductive ChannelStep (ch : Channel) : Channel → Prop where
  | idle : ChannelStep ch ch
  | call (methodIdx : UInt32) (request : ProtoMessage) : ChannelStep ch (ch.callMethod methodIdx request)
  | request (i : Nat) (sent : UInt64 × Bytes) (found : ch.pending[i]? = some sent) :
      ChannelStep ch { ch with pending := ch.pending.eraseIdx i }
  | requestThrows (i : Nat) (sent : UInt64 × Bytes) (found : ch.pending[i]? = some sent) :
      ChannelStep ch (Channel.onException { ch with pending := ch.pending.eraseIdx i } sent.1)
  | reply (reqId : UInt64) (reply : Reply) :
      ChannelStep ch (ch.onReply reqId reply.parseFromArray reply.rc reply.buffer)
  | exception (reqId : UInt64) : ChannelStep ch (ch.onException reqId)

/-- A step of a call as the channel sees it. -/
inductive Seen (call call' : MethodCall) : Prop where
  | silent (pending : pendingOf call' = pendingOf call) (reports : reportsOf call' = reportsOf call)
  | requested (sent : UInt64 × Bytes) (waited : pendingOf call = [sent]) (pending : pendingOf call' = [])
      (reports : reportsOf call' = reportsOf call)
  | threw (sent : UInt64 × Bytes) (waited : pendingOf call = [sent]) (pending : pendingOf call' = [])
      (fresh : reportsOf call = []) (reports : reportsOf call' = [⟨some sent.1, .unknownError, none⟩])
  | failed (reqId : UInt64) (pending : pendingOf call' = pendingOf call) (fresh : reportsOf call = [])
      (reports : reportsOf call' = [⟨some reqId, .unknownError, none⟩])
  | replied (reqId : UInt64) (reply : Reply) (pending : pendingOf call' = pendingOf call)
      (fresh : reportsOf call = [])
      (reports : reportsOf call' = [⟨some reqId, reply.result reqId, reply.response reqId⟩])

section Seen

variable {call call' : MethodCall}

theorem seen_of_move (sound : call.Sound) (move : MethodCall.Move call call') : Seen call call' := by
  -- a closure that is run with `unknown_error` makes the report of an exception
  have failure : ∀ reqId, call.reqId = some reqId → call.continued = false →
      call.failedController.runs.map (fun result => (⟨call.reqId, result, call.response⟩ : Report)) =
        [⟨some reqId, .unknownError, none⟩] := by
    intro reqId number unrun
    rw [sound.unparsed (sound.unanswered unrun), number]
    rfl
  have fresh : call.controller.runs = [] → reportsOf call = [] := by
    intro unused
    rw [reportsOf, unused]
    rfl
  cases move with
  | requested message stage =>
      obtain ⟨reqId, number⟩ := Option.ne_none_iff_exists'.mp (sound.starting_numbered (.inr ⟨message, stage⟩))
      exact .requested (reqId, message) (by rw [pendingOf, stage, number]; rfl) rfl rfl
  | failed sent starting =>
      obtain ⟨reqId, number⟩ := Option.ne_none_iff_exists'.mp (sound.starting_numbered starting)
      obtain ⟨holder, unrun⟩ := sound.starting starting
      have unused := fresh (sound.alone holder).2
      rcases starting with chaining | ⟨message, requesting⟩
      · exact .failed reqId (by rw [pendingOf, pendingOf, chaining]) unused (failure reqId number unrun)
      · exact .threw (reqId, message) (by rw [pendingOf, requesting, number]; rfl) rfl unused
          (failure reqId number unrun)
  | chained stage => exact .silent (by rw [pendingOf, pendingOf, stage]) rfl
  | finished stage => exact .silent (by rw [pendingOf, pendingOf, stage]) rfl
  | replied reqId reply there number =>
      refine .replied reqId reply rfl (fresh (sound.captured_alone there).2) ?_
      rw [reportsOf, number]
      rfl
  | unlocked there =>
      obtain ⟨numbered, unrun⟩ := sound.continuation_facts there
      obtain ⟨reqId, number⟩ := Option.ne_none_iff_exists'.mp numbered
      exact .failed reqId rfl (fresh (sound.captured_alone there).2) (failure reqId number unrun)
  | dropped there =>
      obtain ⟨numbered, unrun⟩ := sound.continuation_facts there
      obtain ⟨reqId, number⟩ := Option.ne_none_iff_exists'.mp numbered
      exact .failed reqId rfl (fresh (sound.captured_alone there).2) (failure reqId number unrun)
  | discarded there => exact .silent rfl rfl

theorem callOf_eq (move : MethodCall.Move call call') : callOf call' = callOf call := by
  cases move with
  | _ => rfl

end Seen

/-- Taking an element out of a list that has it once more than another. -/
theorem exists_eraseIdx_perm {α : Type} {waiting before after : List α} {sent : α}
    (same : waiting.Perm (before ++ [sent] ++ after)) :
    ∃ i : Nat, waiting[i]? = some sent ∧ (waiting.eraseIdx i).Perm (before ++ [] ++ after) := by
  have member : sent ∈ waiting := same.mem_iff.mpr (by simp)
  obtain ⟨i, here⟩ := List.getElem?_of_mem member
  refine ⟨i, here, ?_⟩
  apply List.Perm.cons_inv (a := sent)
  calc
    (sent :: waiting.eraseIdx i).Perm waiting := (Lib.Table.eraseIdx_perm here).symm
    List.Perm _ (before ++ [sent] ++ after) := same
    List.Perm _ (sent :: (before ++ [] ++ after)) := by
        rw [List.append_assoc, List.append_nil]
        exact List.perm_middle

theorem append_perm_middle {α : Type} {reports before after : List α} (report : α)
    (same : reports.Perm (before ++ [] ++ after)) : (reports ++ [report]).Perm (before ++ [report] ++ after) := by
  have moved : (before ++ [report] ++ after).Perm (before ++ after ++ [report]) := by
    rw [List.append_assoc, List.append_assoc]
    exact List.Perm.append_left before List.perm_append_comm
  rw [List.append_nil] at same
  exact (same.append_right [report]).trans moved.symm

/-- A new call in both models. -/
theorem callMethod_eq (ch : Channel) (methodIdx : UInt32) (request : ProtoMessage) (uncaught : Nat) :
    ch.callMethod methodIdx request =
      { nextReqId := (MethodCall.callMethod ch.nextReqId methodIdx request uncaught).1
        calls := ch.calls ++ callOf (MethodCall.callMethod ch.nextReqId methodIdx request uncaught).2
        pending := ch.pending ++ pendingOf (MethodCall.callMethod ch.nextReqId methodIdx request uncaught).2
        reports := ch.reports ++
          reportsOf (MethodCall.callMethod ch.nextReqId methodIdx request uncaught).2 } := by
  unfold Channel.callMethod MethodCall.callMethod
  by_cases big : isRequestProtoTooBig request = true
  · simp [big, callOf, pendingOf, reportsOf, MethodCall.leave, ClosureGuard.destroy, ClosureGuard.ofClosure,
      RequestController.run, RequestController.setResult]
  · simp only [big]
    cases createTransferMsgReq ch.nextReqId methodIdx (some request) with
    | error e =>
        simp [callOf, pendingOf, reportsOf, MethodCall.leave, ClosureGuard.destroy, ClosureGuard.ofClosure,
          RequestController.run, Channel.onException]
    | ok message => simp [callOf, pendingOf, reportsOf]

/-- The calls with their guards do what the model of a channel allows, so what holds of its runs holds of them. -/
theorem Simulates.step {ch : Channel} {e : Event} (simulates : Simulates s ch) (sound : s.Sound)
    (stepped : machine.step s e = some s') : ∃ ch', ChannelStep ch ch' ∧ Simulates s' ch' := by
  cases move_of_step sound.each stepped with
  | call methodIdx request uncaught next calls =>
      obtain ⟨sameNext, sameCalls, samePending, sameReports⟩ := simulates
      have called := callMethod_eq ch methodIdx request uncaught
      rw [sameNext] at called
      refine ⟨_, .call methodIdx request, ?_⟩
      rw [called]
      constructor
      · exact next.symm
      · rw [calls, List.flatMap_append, ← sameCalls, List.flatMap_singleton]
      · rw [calls, List.flatMap_append, List.flatMap_singleton]
        exact samePending.append_right _
      · rw [calls, List.flatMap_append, List.flatMap_singleton]
        exact sameReports.append_right _
  | update i call call' found next calls moved =>
      have listed : s'.calls.flatMap callOf = s.calls.flatMap callOf := by
        obtain ⟨before, after, old, new⟩ := Table.flatMap_set found call' callOf
        rw [calls, old, new, callOf_eq moved]
      obtain ⟨waited, waiting, oldPending, newPending⟩ := Table.flatMap_set found call' pendingOf
      obtain ⟨told, telling, oldReports, newReports⟩ := Table.flatMap_set found call' reportsOf
      have samePending := simulates.pending
      have sameReports := simulates.reports
      have sameNext := simulates.next.trans next.symm
      have sameCalls := simulates.calls.trans listed.symm
      rw [oldPending] at samePending
      rw [oldReports] at sameReports
      rw [← calls] at newPending newReports
      cases seen_of_move (sound.each i call found) moved with
      | silent pending reports =>
          rw [pending] at newPending
          rw [reports] at newReports
          exact ⟨ch, .idle, sameNext, sameCalls, newPending ▸ samePending, newReports ▸ sameReports⟩
      | requested sent waits pending reports =>
          rw [waits] at samePending
          rw [pending] at newPending
          rw [reports] at newReports
          obtain ⟨j, there, rest⟩ := exists_eraseIdx_perm samePending
          exact ⟨_, .request j sent there, sameNext, sameCalls, newPending ▸ rest, newReports ▸ sameReports⟩
      | threw sent waits pending fresh reports =>
          rw [waits] at samePending
          rw [pending] at newPending
          rw [fresh] at sameReports
          rw [reports] at newReports
          obtain ⟨j, there, rest⟩ := exists_eraseIdx_perm samePending
          exact ⟨_, .requestThrows j sent there, sameNext, sameCalls, newPending ▸ rest,
            newReports ▸ append_perm_middle _ sameReports⟩
      | failed reqId pending fresh reports =>
          rw [pending] at newPending
          rw [fresh] at sameReports
          rw [reports] at newReports
          exact ⟨_, .exception reqId, sameNext, sameCalls, newPending ▸ samePending,
            newReports ▸ append_perm_middle _ sameReports⟩
      | replied reqId reply pending fresh reports =>
          rw [pending] at newPending
          rw [fresh] at sameReports
          rw [reports] at newReports
          have told : ch.onReply reqId reply.parseFromArray reply.rc reply.buffer =
              { ch with reports := ch.reports ++ [⟨some reqId, reply.result reqId, reply.response reqId⟩] } := by
            unfold Channel.onReply Reply.result Reply.response
            cases Channel.readReply reqId reply.parseFromArray reply.rc reply.buffer with
            | ok outcome => rfl
            | error thrown => rfl
          refine ⟨_, .reply reqId reply, ?_⟩
          rw [told]
          exact ⟨sameNext, sameCalls, newPending ▸ samePending, newReports ▸ append_perm_middle _ sameReports⟩

/-- Every run of the calls is a run of the channel. -/
theorem simulates_of_run {es : List Event} (ran : machine.run {} es = some s) :
    ∃ ch, Relation.ReflTransGen ChannelStep {} ch ∧ Simulates s ch := by
  refine Machine.run_induction (P := fun _ s => ∃ ch, Relation.ReflTransGen ChannelStep {} ch ∧ Simulates s ch)
    ⟨{}, .refl, rfl, rfl, .refl [], .refl []⟩ ?_ ran
  rintro es a e b reached ⟨ch, before, simulates⟩ stepped
  obtain ⟨ch', channelStep, simulates'⟩ := simulates.step (sound_of_run reached) stepped
  exact ⟨ch', before.tail channelStep, simulates'⟩

end MethodCalls

end CommonRpc
