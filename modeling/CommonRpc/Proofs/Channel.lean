/-
Module: CommonRpc.Proofs.Channel
Purpose: What a call of a channel can do: it gets the next number and a frame that carries it, and it is reported
  `ok` only for a response frame that carries its number and the code `ok`.
Trusted boundary: none
-/
import CommonRpc.Core.Channel
import CommonRpc.Proofs.TransferMessage
import Mathlib.Data.List.Nodup
import Mathlib.Data.List.Range

namespace CommonRpc

/-- The frame of a call. -/
def Call.frame (call : Call) : Bytes := reqFrame call.reqId call.methodIdx call.payload

/-- A payload that passed the size check. -/
def Call.Small (call : Call) : Prop := call.payload.length ≤ MaxRequestProtoSize

theorem Call.Small.lt {call : Call} (small : call.Small) : call.payload.length < 2 ^ 32 :=
  Nat.lt_of_le_of_lt small (by decide)

namespace Channel

variable {ch ch' : Channel}

section Numbers

/-- The numbers of the calls are 0, 1, 2 and so on. -/
structure Numbered (ch : Channel) : Prop where
  next : ch.nextReqId = UInt64.ofNat ch.calls.length
  ids : ch.calls.map Call.reqId = (List.range ch.calls.length).map UInt64.ofNat

theorem Numbered.ids_nodup (numbered : ch.Numbered) (few : ch.calls.length ≤ 2 ^ 64) :
    (ch.calls.map Call.reqId).Nodup := by
  rw [numbered.ids]
  apply List.Nodup.map_on _ List.nodup_range
  intro i inRange j inRange' same
  have values := congrArg UInt64.toNat same
  rwa [UInt64.toNat_ofNat_of_lt' (Nat.lt_of_lt_of_le (List.mem_range.mp inRange) few),
    UInt64.toNat_ofNat_of_lt' (Nat.lt_of_lt_of_le (List.mem_range.mp inRange') few)] at values

theorem Numbered.add (numbered : ch.Numbered) {call : Call} (number : call.reqId = ch.nextReqId)
    (calls : ch'.calls = ch.calls ++ [call]) (next : ch'.nextReqId = ch.nextReqId + 1) : ch'.Numbered where
  next := by
    rw [next, numbered.next, calls, List.length_append, List.length_singleton, UInt64.ofNat_add]
    rfl
  ids := by
    rw [calls, List.map_append, numbered.ids, List.length_append, List.length_singleton, List.range_succ,
      List.map_append, List.map_singleton, List.map_singleton, number, numbered.next]

end Numbers

section Calls

/-- What `CallMethod` can do before it calls the connection. -/
inductive Started (ch ch' : Channel) : Prop where
  | unnumbered (calls : ch'.calls = ch.calls) (next : ch'.nextReqId = ch.nextReqId)
      (pending : ch'.pending = ch.pending) (ended : List Report)
      (reports : ch'.reports = ch.reports ++ ended) (failed : ∀ report ∈ ended, report.result ≠ .ok)
  | numbered (call : Call) (number : call.reqId = ch.nextReqId) (small : call.Small)
      (calls : ch'.calls = ch.calls ++ [call]) (next : ch'.nextReqId = ch.nextReqId + 1)
      (sent : List (UInt64 × Bytes)) (pending : ch'.pending = ch.pending ++ sent)
      (frames : sent = [] ∨ sent = [(call.reqId, call.frame)]) (ended : List Report)
      (reports : ch'.reports = ch.reports ++ ended) (failed : ∀ report ∈ ended, report.result ≠ .ok)

theorem callMethod_started (ch : Channel) (methodIdx : UInt32) (request : ProtoMessage) :
    Started ch (ch.callMethod methodIdx request) := by
  unfold callMethod
  split
  · exact .unnumbered rfl rfl rfl [⟨none, .requestTooBig, none⟩] rfl (by simp)
  · rename_i fits
    have small : request.serialization.length ≤ MaxRequestProtoSize := by
      simpa [isRequestProtoTooBig, ProtoMessage.byteSizeLong] using fits
    simp only
    split
    · exact .numbered ⟨ch.nextReqId, methodIdx, request.serialization⟩ rfl small rfl rfl []
        (List.append_nil _).symm (.inl rfl) [⟨some ch.nextReqId, .unknownError, none⟩] rfl (by simp)
    · rename_i message made
      obtain ⟨rfl, -⟩ := createTransferMsgReq_eq_ok made
      exact .numbered ⟨ch.nextReqId, methodIdx, request.serialization⟩ rfl small rfl rfl _ rfl
        (.inr rfl) [] (List.append_nil _).symm (by simp)

end Calls

section Replies

/-- The buffer is a response frame for the request, with the code `ok` and the given payload. -/
def Confirms (buffer : Buffer) (reqId : UInt64) (response : Option Bytes) : Prop :=
  getTransferMsgType buffer = .ok .res ∧ getMsgNumberRes buffer = .ok reqId ∧
    getMsgResponseCodeRes buffer = .ok .ok ∧
    ∃ view bytes, getSerializedProtoMessage buffer = .ok view ∧ view.bytes buffer = .ok bytes ∧
      response = some bytes

theorem readReply_ok {reqId : UInt64} {parseFromArray : Bytes → Bool} {rc : RequestResult} {buffer : Buffer}
    {response : Option Bytes}
    (reply : readReply reqId parseFromArray rc buffer = .ok (.ok, response)) :
    rc = .ok ∧ Confirms buffer reqId response := by
  unfold readReply at reply
  split at reply
  · rename_i success
    obtain ⟨valid, -, reply⟩ := bind_eq_ok reply
    split at reply
    · cases reply
    · obtain ⟨type, isRes, reply⟩ := bind_eq_ok reply
      split at reply
      · cases reply
      · rename_i res
        obtain ⟨number, carries, reply⟩ := bind_eq_ok reply
        split at reply
        · cases reply
        · rename_i same
          obtain ⟨resCode, code, reply⟩ := bind_eq_ok reply
          split at reply
          · cases reply
          · rename_i passed
            obtain ⟨view, shown, reply⟩ := bind_eq_ok reply
            obtain ⟨bytes, read, reply⟩ := bind_eq_ok reply
            split at reply
            · cases reply
            · cases reply
              obtain rfl := not_not.mp res
              obtain rfl := not_not.mp same
              have ok : resCode = .ok := by
                simpa [ResponseResult.isFail, ResponseResult.isSuccess] using passed
              rw [ok] at code
              exact ⟨of_decide_eq_true success, isRes, carries, code, view, bytes, shown, read, rfl⟩
  · rename_i failure
    cases reply
    exact absurd rfl failure

/-- The continuation makes one report, which says `ok` only for a response that confirms the call. -/
theorem onReply_eq (ch : Channel) (reqId : UInt64) (parseFromArray : Bytes → Bool) (rc : RequestResult)
    (buffer : Buffer) :
    ∃ report, ch.onReply reqId parseFromArray rc buffer = { ch with reports := ch.reports ++ [report] } ∧
      report.reqId = some reqId ∧
      (report.result = .ok → rc = .ok ∧ Confirms buffer reqId report.response) := by
  unfold onReply
  split
  · rename_i result response reply
    refine ⟨_, rfl, rfl, ?_⟩
    rintro rfl
    exact readReply_ok reply
  · exact ⟨_, rfl, rfl, fun ok => by cases ok⟩

end Replies

end Channel

end CommonRpc
