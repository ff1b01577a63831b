/-
Module: CommonRpc.Proofs.Service
Purpose: What a service does with requests: a method is invoked with the number, the method index and the payload
  of its request frame, every invocation completes at most once, and a response frame with the code `ok`
  carries what a method that completed had filled in.
Trusted boundary: none
-/
import CommonRpc.Core.Service
import CommonRpc.Proofs.TransferMessage
import Mathlib.Data.List.Perm.Basic

namespace CommonRpc

/-- The request frame an invocation was made for. -/
def Invocation.frame (invocation : Invocation) : Bytes :=
  reqFrame invocation.number invocation.methodIdx invocation.payload

namespace Service

variable {s s' : Service}

/-- A response frame with the code `ok` carries what a method answered to the request of that number. -/
def Genuine (completions : List Completion) (frame : Bytes) : Prop :=
  ∃ number rc payload, frame = resFrame number rc payload ∧ payload.length ≤ MaxResponseProtoSize ∧
    (rc = .ok → ∃ done ∈ completions,
      done.invocation.number = number ∧ done.rc = .ok ∧ done.response.serialization = payload)

theorem Genuine.mono {completions completions' : List Completion} {frame : Bytes}
    (genuine : Genuine completions frame) (more : completions ⊆ completions') :
    Genuine completions' frame := by
  obtain ⟨number, rc, payload, made, small, answered⟩ := genuine
  refine ⟨number, rc, payload, made, small, fun ok => ?_⟩
  obtain ⟨done, member, facts⟩ := answered ok
  exact ⟨done, more member, facts⟩

theorem Genuine.isRes {completions : List Completion} {frame : Bytes} (genuine : Genuine completions frame) :
    getTransferMsgType (some frame) = .ok .res := by
  obtain ⟨number, rc, payload, rfl, -⟩ := genuine
  exact getTransferMsgType_frame .res payload number _

/-- A response with any other code promises nothing. -/
theorem genuine_of_failed {number : UInt64} {rc : ResponseResult} {message : Option ProtoMessage}
    {frame : Bytes} (fails : rc ≠ .ok) (made : createTransferMsgRes number rc message = .ok frame)
    (completions : List Completion) : Genuine completions frame := by
  obtain ⟨rfl, small⟩ := createTransferMsgRes_eq_ok made
  exact ⟨number, rc, _, rfl, small, fun ok => absurd ok fails⟩

section Process

theorem processRequest_answered {gservice : Option ServiceDescriptor} {reqMsg : Buffer} {response : Bytes}
    (processed : processRequest gservice reqMsg = .ok (.answered response)) (completions : List Completion) :
    Genuine completions response := by
  unfold processRequest at processed
  obtain ⟨valid, -, processed⟩ := bind_eq_ok processed
  split at processed
  · obtain ⟨frame, made, answer⟩ := bind_eq_ok processed
    cases answer
    exact genuine_of_failed (by decide) made completions
  · obtain ⟨number, -, processed⟩ := bind_eq_ok processed
    obtain ⟨methodIdx, -, processed⟩ := bind_eq_ok processed
    obtain ⟨view, -, processed⟩ := bind_eq_ok processed
    split at processed
    · obtain ⟨frame, made, answer⟩ := bind_eq_ok processed
      cases answer
      exact genuine_of_failed (by decide) made completions
    · split at processed
      · obtain ⟨frame, made, answer⟩ := bind_eq_ok processed
        cases answer
        exact genuine_of_failed (by decide) made completions
      · obtain ⟨bytes, -, processed⟩ := bind_eq_ok processed
        split at processed
        · obtain ⟨frame, made, answer⟩ := bind_eq_ok processed
          cases answer
          exact genuine_of_failed (by decide) made completions
        · cases processed

/-- A method is invoked for the request it was asked for. -/
theorem processRequest_invoked {gservice : Option ServiceDescriptor} {number : UInt64} {methodIdx : UInt32}
    {payload : Bytes} (small : payload.length < 2 ^ 32) {invocation : Invocation}
    (processed : processRequest gservice (some (reqFrame number methodIdx payload)) =
      .ok (.invoked invocation)) :
    invocation = ⟨number, methodIdx, payload⟩ := by
  obtain ⟨view, shown, read⟩ :=
    getSerializedProtoMessage_frame .req payload number (fromUint32ToBigEndian methodIdx) small
  unfold processRequest at processed
  rw [isRequestBufferValid_reqFrame number small methodIdx, getMsgNumberReq_reqFrame number small methodIdx,
    getMsgMethodIdxReq_reqFrame number small methodIdx] at processed
  obtain ⟨valid, isValid, processed⟩ := bind_eq_ok processed
  cases isValid
  split at processed
  · rename_i invalid
    cases invalid
  · obtain ⟨number', sameNumber, processed⟩ := bind_eq_ok processed
    cases sameNumber
    obtain ⟨methodIdx', sameMethod, processed⟩ := bind_eq_ok processed
    cases sameMethod
    obtain ⟨view', shown', processed⟩ := bind_eq_ok processed
    obtain rfl := Except.ok.inj (shown.symm.trans shown')
    split at processed
    · obtain ⟨frame, -, answer⟩ := bind_eq_ok processed
      cases answer
    · split at processed
      · obtain ⟨frame, -, answer⟩ := bind_eq_ok processed
        cases answer
      · obtain ⟨bytes, read', processed⟩ := bind_eq_ok processed
        obtain rfl := Except.ok.inj (read.symm.trans read')
        split at processed
        · obtain ⟨frame, -, answer⟩ := bind_eq_ok processed
          cases answer
        · cases processed
          rfl

end Process

/-- The invariant of a service. -/
structure Sound (s : Service) : Prop where
  accounted : (s.completions.map Completion.invocation ++ s.running).Perm s.invocations
  genuine : ∀ response ∈ s.responses, Genuine s.completions response

theorem Sound.settle (sound : s.Sound) {result : Except MsgError Bytes}
    (genuine : ∀ response, result = .ok response → Genuine s.completions response) :
    (s.settle result).Sound := by
  cases result with
  | error e => exact sound
  | ok response =>
      refine ⟨sound.accounted, fun other member => ?_⟩
      rcases List.mem_append.mp member with old | new
      · exact sound.genuine other old
      · rw [List.mem_singleton.mp new]
        exact genuine response rfl

theorem Sound.process (sound : s.Sound) (reqMsg : Buffer) : (s.process reqMsg).Sound := by
  unfold Service.process
  split
  · exact sound
  · rename_i response processed
    apply sound.settle
    intro other same
    cases same
    exact processRequest_answered processed s.completions
  · refine ⟨?_, sound.genuine⟩
    simp only [← List.append_assoc]
    exact sound.accounted.append_right _

theorem process_completions (s : Service) (reqMsg : Buffer) : (s.process reqMsg).completions = s.completions := by
  unfold Service.process
  split
  · rfl
  · rfl
  · rfl

/-- A request is used up by at most one invocation, which is its own. -/
theorem process_invocations (s : Service) {number : UInt64} {methodIdx : UInt32} {payload : Bytes}
    (small : payload.length < 2 ^ 32) :
    (s.process (some (reqFrame number methodIdx payload))).invocations = s.invocations ∨
      (s.process (some (reqFrame number methodIdx payload))).invocations =
        s.invocations ++ [⟨number, methodIdx, payload⟩] := by
  unfold Service.process
  split
  · exact .inl rfl
  · exact .inl rfl
  · rename_i invocation processed
    exact .inr (by rw [processRequest_invoked small processed])

/-- What the closure of a method sends. -/
theorem runClosure_genuine {gservice : ServiceDescriptor} {invocation : Invocation} {rc : ResponseResult}
    {res : ProtoMessage} {response : Bytes} (made : runClosure gservice invocation rc res = .ok response)
    {completions : List Completion} (listed : (⟨invocation, rc, res⟩ : Completion) ∈ completions) :
    Genuine completions response := by
  unfold runClosure at made
  split at made
  · exact genuine_of_failed (by decide) made completions
  · obtain ⟨rfl, small⟩ := createTransferMsgRes_eq_ok made
    refine ⟨invocation.number, rc, _, rfl, small, ?_⟩
    rintro rfl
    exact ⟨_, listed, rfl, rfl, rfl⟩

theorem complete_logs {i : Nat} {unwinding : Bool} {res : ProtoMessage}
    (completed : s.complete i unwinding res = some s') :
    s'.invocations = s.invocations ∧ s.completions ⊆ s'.completions := by
  unfold Service.complete at completed
  split at completed
  · cases completed
    simp only [Service.settle]
    split
    · exact ⟨rfl, List.subset_append_left _ _⟩
    · exact ⟨rfl, List.subset_append_left _ _⟩
  · cases completed

theorem Sound.complete (sound : s.Sound) {i : Nat} {unwinding : Bool} {res : ProtoMessage}
    (completed : s.complete i unwinding res = some s') : s'.Sound := by
  unfold Service.complete at completed
  split at completed
  · rename_i invocation gservice found _
    cases completed
    apply Sound.settle
    · constructor
      · obtain ⟨inRange, here⟩ := List.getElem?_eq_some_iff.mp found
        rw [List.map_append, List.append_assoc]
        refine List.Perm.trans (List.Perm.append_left _ ?_) sound.accounted
        rw [← here]
        exact (List.getElem_cons_eraseIdx_perm inRange)
      · intro response member
        exact (sound.genuine response member).mono (List.subset_append_left _ _)
    · intro response made
      exact runClosure_genuine made (List.mem_append_right _ (List.mem_singleton.mpr rfl))
  · cases completed

end Service

end CommonRpc
