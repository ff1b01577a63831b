/-
Module: CommonRpc.Proofs.Peer
Purpose: One peer, seen from outside. Its own steps keep its invariant; they move a request frame from one place
  to the next without copying it, answer only with genuine responses, and report `ok` only what a received
  response confirms.
Trusted boundary: none
-/
import CommonRpc.Core.Peers
import CommonRpc.Lib.Table
import CommonRpc.Proofs.Channel
import CommonRpc.Proofs.Connection
import CommonRpc.Proofs.ConnectionTraffic
import CommonRpc.Proofs.Service
import Mathlib.Data.List.Perm.Subperm

namespace CommonRpc

theorem nodup_of_subperm {α : Type*} {l₁ l₂ : List α} (within : l₁.Subperm l₂) (distinct : l₂.Nodup) :
    l₁.Nodup := by
  obtain ⟨l, perm, sublist⟩ := within
  exact perm.nodup_iff.mp (distinct.sublist sublist)

section Kinds

/-- A frame is a request frame. -/
def isRequest (frame : Bytes) : Bool := (getTransferMsgType (some frame)).toOption = some .req

theorem isRequest_iff {frame : Bytes} :
    isRequest frame = true ↔ getTransferMsgType (some frame) = .ok .req := by
  rw [isRequest, decide_eq_true_eq]
  cases getTransferMsgType (some frame) with
  | error e => simp [Except.toOption]
  | ok kind => simp [Except.toOption]

theorem Call.isReq (call : Call) : getTransferMsgType (some call.frame) = .ok .req :=
  getTransferMsgType_frame .req _ _ _

theorem Connection.IsControl.not_request {frame : Bytes} (isControl : Connection.IsControl frame) :
    isRequest frame = false ∧ getTransferMsgType (some frame) ≠ .ok .res := by
  rcases isControl with rfl | rfl
  · exact ⟨rfl, by decide⟩
  · exact ⟨rfl, by decide⟩

end Kinds

namespace Peer

variable {p p' : Peer}

/-- The request frames a peer still has on its own side. -/
def out (p : Peer) : List Bytes :=
  p.channel.pending.map Prod.snd ++
    (p.connection.calling.toList.map Prod.snd ++ p.connection.outbox.filter isRequest)

/-- The request frames a peer got from the other side, waiting or used up. -/
def taken (p : Peer) : List Buffer :=
  p.connection.toService ++ p.service.invocations.map fun invocation => some invocation.frame

/-- A number and a frame that a call of the channel has. -/
def IsCalled (p : Peer) (sent : UInt64 × Bytes) : Prop :=
  ∃ call ∈ p.channel.calls, sent = (call.reqId, call.frame)

/-- A report that says `ok` has a response that was received and confirms the call. -/
def IsConfirmed (p : Peer) (report : Report) : Prop :=
  ∃ reqId, report.reqId = some reqId ∧
    ∃ message ∈ p.connection.received, Channel.Confirms message reqId report.response

/-- The invariant of one peer. -/
structure Sound (p : Peer) : Prop where
  book : p.connection.book.Consistent p.connection.SendOutstanding
  numbered : p.channel.Numbered
  few : p.channel.calls.length < 2 ^ 64 - 1
  small : ∀ call ∈ p.channel.calls, call.Small
  numbers : (p.channel.pending.map Prod.fst ++ p.connection.issued).Subperm
    (p.channel.calls.map Call.reqId)
  pending : ∀ sent ∈ p.channel.pending, p.IsCalled sent
  calling : ∀ sent, p.connection.calling = some sent → p.IsCalled sent
  service : p.service.Sound
  honest : ∀ frame ∈ p.connection.outbox, getTransferMsgType (some frame) = .ok .res →
    Service.Genuine p.service.completions frame
  reports : ∀ report ∈ p.channel.reports, report.result = .ok → p.IsConfirmed report

/-- The requests that wait for the service are frames of calls. -/
def Requested (p : Peer) : Prop :=
  ∀ message ∈ p.connection.toService, ∃ call : Call, call.Small ∧ message = some call.frame

/-- What a peer does by itself, as the other peer sees it. -/
structure LocalStep (p p' : Peer) : Prop where
  calls : ∃ new, p'.channel.calls = p.channel.calls ++ new ∧
    p'.out.Subperm (p.out ++ new.map Call.frame)
  taken : p'.taken.Subperm p.taken
  completions : p.service.completions ⊆ p'.service.completions
  received : p'.connection.received = p.connection.received

/-- A local step that makes no call. -/
theorem LocalStep.ofSameCalls (calls : p'.channel.calls = p.channel.calls) (out : p'.out.Subperm p.out)
    (taken : p'.taken.Subperm p.taken) (completions : p.service.completions ⊆ p'.service.completions)
    (received : p'.connection.received = p.connection.received) : LocalStep p p' where
  calls := ⟨[], by rw [calls, List.append_nil], by rwa [List.map_nil, List.append_nil]⟩
  taken := taken
  completions := completions
  received := received

theorem Sound.ids_nodup (sound : p.Sound) : (p.channel.calls.map Call.reqId).Nodup :=
  sound.numbered.ids_nodup (by have := sound.few; omega)

/-- Reports that do not say `ok` need no confirmation. -/
theorem Sound.more_reports (sound : p.Sound) {ended : List Report}
    (failed : ∀ report ∈ ended, report.result ≠ .ok) :
    ∀ report ∈ p.channel.reports ++ ended, report.result = .ok → p.IsConfirmed report := by
  intro report member ok
  rcases List.mem_append.mp member with old | new
  · exact sound.reports report old ok
  · exact absurd ok (failed report new)

section CallMethod

variable {methodIdx : UInt32} {request : ProtoMessage}

theorem Sound.callMethod (sound : p.Sound)
    (few : (p.channel.callMethod methodIdx request).calls.length < 2 ^ 64 - 1) :
    ({ p with channel := p.channel.callMethod methodIdx request } : Peer).Sound := by
  have more : ∀ {call}, call ∈ p.channel.calls → call ∈ (p.channel.callMethod methodIdx request).calls := by
    intro call member
    rcases Channel.callMethod_started p.channel methodIdx request with
      ⟨calls, -⟩ | ⟨new, -, -, calls, -⟩
    · exact calls ▸ member
    · exact calls ▸ List.mem_append_left _ member
  have still : ∀ {sent}, p.IsCalled sent →
      ({ p with channel := p.channel.callMethod methodIdx request } : Peer).IsCalled sent := by
    rintro sent ⟨call, member, same⟩
    exact ⟨call, more member, same⟩
  rcases Channel.callMethod_started p.channel methodIdx request with
    ⟨calls, next, pending, ended, reports, failed⟩ |
    ⟨call, number, small, calls, next, sent, pending, frames, ended, reports, failed⟩
  · exact {
      book := sound.book
      numbered := ⟨by rw [next, calls, sound.numbered.next], by rw [calls, sound.numbered.ids]⟩
      few := few
      small := fun call member => sound.small call (calls ▸ member)
      numbers := by
        rw [pending, calls]
        exact sound.numbers
      pending := fun sent member => still (sound.pending sent (pending ▸ member))
      calling := fun sent called => still (sound.calling sent called)
      service := sound.service
      honest := sound.honest
      reports := fun report member => sound.more_reports failed report (reports ▸ member) }
  · exact {
      book := sound.book
      numbered := sound.numbered.add number calls next
      few := few
      small := by
        intro other member
        rw [calls] at member
        rcases List.mem_append.mp member with old | new
        · exact sound.small other old
        · exact List.mem_singleton.mp new ▸ small
      numbers := by
        have ids : (sent.map Prod.fst).Subperm [call.reqId] := by
          rcases frames with rfl | rfl
          · exact List.nil_subperm
          · exact List.Subperm.refl _
        rw [pending, calls, List.map_append, List.map_append, List.append_assoc]
        apply (List.perm_append_comm.append_left _).subperm.trans
        rw [← List.append_assoc]
        exact sound.numbers.append ids
      pending := by
        intro other member
        rw [pending] at member
        rcases List.mem_append.mp member with old | new
        · exact still (sound.pending other old)
        · refine ⟨call, calls ▸ List.mem_append_right _ (List.mem_singleton.mpr rfl), ?_⟩
          rcases frames with rfl | rfl
          · cases new
          · exact List.mem_singleton.mp new
      calling := fun other called => still (sound.calling other called)
      service := sound.service
      honest := sound.honest
      reports := fun report member => sound.more_reports failed report (reports ▸ member) }

theorem callMethod_localStep (p : Peer) (methodIdx : UInt32) (request : ProtoMessage) :
    LocalStep p { p with channel := p.channel.callMethod methodIdx request } := by
  refine ⟨?_, List.Subperm.refl _, List.Subset.refl _, rfl⟩
  rcases Channel.callMethod_started p.channel methodIdx request with
    ⟨calls, -, pending, -⟩ | ⟨call, -, -, calls, -, sent, pending, frames, -⟩
  · refine ⟨[], calls.trans (List.append_nil _).symm, ?_⟩
    simp only [out, pending, List.map_nil, List.append_nil]
    exact List.Subperm.refl _
  · refine ⟨[call], calls, ?_⟩
    have sentFrames : (sent.map Prod.snd).Subperm [call.frame] := by
      rcases frames with rfl | rfl
      · exact List.nil_subperm
      · exact List.Subperm.refl _
    simp only [out, pending, List.map_append, List.append_assoc, List.map_singleton]
    apply (List.Subperm.refl _).append
    rw [← List.append_assoc _ _ [call.frame]]
    exact List.perm_append_comm.subperm.trans ((List.Subperm.refl _).append sentFrames)

end CallMethod

section Request

/-- The channel's side of a request: the call is no longer pending, and if it is over then not with `ok`. -/
theorem request_eq {i : Nat} {running : Bool} (stepped : p.step (.request i running) = some p') :
    ∃ reqId message, p.channel.pending[i]? = some (reqId, message) ∧
      p.connection.step (.requestAsync message running) = some p'.connection ∧ p'.service = p.service ∧
      ∃ ended, p'.channel = { p.channel with
          pending := p.channel.pending.eraseIdx i
          reports := p.channel.reports ++ ended } ∧ ∀ report ∈ ended, report.result ≠ .ok := by
  simp only [step] at stepped
  split at stepped
  · cases stepped
  · rename_i reqId message found
    obtain ⟨connection, taken, rfl⟩ := Option.map_eq_some_iff.mp stepped
    refine ⟨reqId, message, found, taken, rfl, ?_⟩
    simp only
    split
    · exact ⟨[], by rw [List.append_nil], by simp⟩
    · split
      · obtain ⟨report, same, -, confirmed⟩ := Channel.onReply_eq
          { p.channel with pending := p.channel.pending.eraseIdx i } reqId (fun _ => false) .failed none
        refine ⟨[report], same, ?_⟩
        intro other member ok
        rw [List.mem_singleton.mp member] at ok
        cases (confirmed ok).1
      · exact ⟨_, rfl, by simp⟩

theorem Sound.request (sound : p.Sound) {i : Nat} {running : Bool}
    (stepped : p.step (.request i running) = some p') : p'.Sound := by
  obtain ⟨reqId, message, found, taken, service, ended, channel, failed⟩ := request_eq stepped
  obtain ⟨call, member, same⟩ := sound.pending _ (List.mem_of_getElem? found)
  obtain ⟨rfl, rfl⟩ := Prod.mk.inj same
  have carries : getMsgNumberReq (some call.frame) = .ok call.reqId :=
    getMsgNumberReq_reqFrame _ (sound.small call member).lt _
  obtain ⟨free, outbox, -, received, filed⟩ := Connection.requestAsync_files carries taken
  have numbers := ((Lib.Table.eraseIdx_perm found).symm.map Prod.fst).append_right p.connection.issued
  have distinct : (p.channel.pending.map Prod.fst ++ p.connection.issued).Nodup :=
    nodup_of_subperm sound.numbers sound.ids_nodup
  have fresh : call.reqId ∉ p.connection.issued := by
    have apart := numbers.nodup_iff.mpr distinct
    exact fun issued => (List.nodup_cons.mp apart).1 (List.mem_append_right _ issued)
  exact {
    book := by
      apply Connection.step_consistent sound.book _ taken
      simpa [Connection.distinctNumbers, carries] using fresh
    numbered := by
      rw [channel]
      exact ⟨sound.numbered.next, sound.numbered.ids⟩
    few := by
      rw [channel]
      exact sound.few
    small := by
      rw [channel]
      exact sound.small
    numbers := by
      rw [channel]
      refine List.Subperm.trans ?_ sound.numbers
      refine List.Subperm.trans ?_ numbers.subperm
      rcases filed with ⟨-, issued⟩ | ⟨-, issued⟩
      · rw [issued]
        exact (List.sublist_cons_self _ _).subperm
      · rw [issued, ← List.append_assoc]
        exact (List.perm_append_singleton _ _).subperm
    pending := by
      intro sent left
      rw [channel] at left
      obtain ⟨other, called, shown⟩ := sound.pending sent (List.eraseIdx_subset left)
      exact ⟨other, by rwa [channel], shown⟩
    calling := by
      intro sent called
      rcases filed with ⟨calling, -⟩ | ⟨calling, -⟩
      · rw [calling] at called
        cases called
      · rw [calling] at called
        cases called
        exact ⟨call, by rwa [channel], rfl⟩
    service := by
      rw [service]
      exact sound.service
    honest := by
      rw [outbox, service]
      exact sound.honest
    reports := by
      intro report listed ok
      rw [channel] at listed
      obtain ⟨number, shown, buffer, arrived, confirms⟩ := sound.more_reports failed report listed ok
      exact ⟨number, shown, buffer, received ▸ arrived, confirms⟩ }

theorem request_localStep (sound : p.Sound) {i : Nat} {running : Bool}
    (stepped : p.step (.request i running) = some p') : LocalStep p p' := by
  obtain ⟨reqId, message, found, taken, service, ended, channel, -⟩ := request_eq stepped
  obtain ⟨call, member, same⟩ := sound.pending _ (List.mem_of_getElem? found)
  obtain ⟨rfl, rfl⟩ := Prod.mk.inj same
  have carries : getMsgNumberReq (some call.frame) = .ok call.reqId :=
    getMsgNumberReq_reqFrame _ (sound.small call member).lt _
  obtain ⟨free, outbox, toService, received, filed⟩ := Connection.requestAsync_files carries taken
  have frames := (Lib.Table.eraseIdx_perm found).symm.map Prod.snd
  refine LocalStep.ofSameCalls (by rw [channel]) ?_ ?_ ?_ received
  · rw [out, out, channel, outbox, free]
    refine List.Subperm.trans ?_ (frames.append_right _).subperm
    rcases filed with ⟨calling, -⟩ | ⟨calling, -⟩
    · rw [calling]
      exact (List.sublist_cons_self _ _).subperm
    · rw [calling]
      exact List.perm_middle.subperm
  · rw [Peer.taken, Peer.taken, toService, service]
  · rw [service]
    exact List.Subset.refl _

end Request

section Connection

variable {c : Connection}

/-- The connection of a peer changes: it files no request, and it sends nothing that pretends to be a
    response. -/
theorem Sound.reconnect (sound : p.Sound) (book : c.book.Consistent c.SendOutstanding)
    (issued : c.issued = p.connection.issued)
    (calling : ∀ sent, c.calling = some sent → p.connection.calling = some sent)
    (outbox : ∀ frame ∈ c.outbox, frame ∈ p.connection.outbox ∨
      (getTransferMsgType (some frame) = .ok .res → Service.Genuine p.service.completions frame))
    (received : p.connection.received ⊆ c.received) : ({ p with connection := c } : Peer).Sound :=
  { sound with
    book := book
    numbers := issued ▸ sound.numbers
    calling := fun sent called => sound.calling sent (calling sent called)
    honest := by
      intro frame member isRes
      rcases outbox frame member with old | new
      · exact sound.honest frame old isRes
      · exact new isRes
    reports := by
      intro report listed ok
      obtain ⟨reqId, shown, message, arrived, confirms⟩ := sound.reports report listed ok
      exact ⟨reqId, shown, message, received arrived, confirms⟩ }

theorem filter_send_control {frame : Bytes} (isControl : Connection.IsControl frame) (outbox : List Bytes) :
    (outbox ++ [frame]).filter isRequest = outbox.filter isRequest := by
  rw [List.filter_append, List.filter_cons_of_neg (by rw [isControl.not_request.1]; simp), List.filter_nil,
    List.append_nil]

theorem Sound.environment (sound : p.Sound) {e : Connection.Event} (env : e.isEnvironment = true)
    (stepped : p.connection.step e = some c) : ({ p with connection := c } : Peer).Sound := by
  have book := Connection.step_consistent sound.book (by cases e <;> first | rfl | cases env) stepped
  rcases Connection.environment_passes env stepped with
    ⟨quiet⟩ | ⟨frame, isControl, quiet⟩ | ⟨number, message, called, quiet⟩
  · apply sound.reconnect book quiet.issued
    · exact fun sent calling => quiet.calling ▸ calling
    · exact fun frame member => .inl (quiet.outbox ▸ member)
    · exact quiet.received ▸ List.Subset.refl _
  · apply sound.reconnect book quiet.issued
    · exact fun sent calling => quiet.calling ▸ calling
    · intro other member
      rw [quiet.outbox] at member
      rcases List.mem_append.mp member with old | new
      · exact .inl old
      · rw [List.mem_singleton.mp new]
        exact .inr fun isRes => absurd isRes isControl.not_request.2
    · exact quiet.received ▸ List.Subset.refl _
  · apply sound.reconnect book quiet.issued
    · intro sent calling
      rw [quiet.calling] at calling
      cases calling
    · intro other member
      rw [quiet.outbox] at member
      rcases List.mem_append.mp member with old | new
      · exact .inl old
      · obtain ⟨call, -, same⟩ := sound.calling _ called
        rw [List.mem_singleton.mp new, (Prod.mk.inj same).2, call.isReq]
        exact .inr fun isRes => by cases isRes
    · exact quiet.received ▸ List.Subset.refl _

theorem environment_localStep (sound : p.Sound) {e : Connection.Event} (env : e.isEnvironment = true)
    (stepped : p.connection.step e = some c) : LocalStep p { p with connection := c } := by
  rcases Connection.environment_passes env stepped with
    ⟨quiet⟩ | ⟨frame, isControl, quiet⟩ | ⟨number, message, called, quiet⟩
  · refine LocalStep.ofSameCalls rfl ?_ ?_ (List.Subset.refl _) quiet.received
    · rw [out, out, quiet.calling, quiet.outbox]
    · rw [taken, taken, quiet.toService]
  · refine LocalStep.ofSameCalls rfl ?_ ?_ (List.Subset.refl _) quiet.received
    · rw [out, out, quiet.calling, quiet.outbox,
        filter_send_control isControl]
    · rw [taken, taken, quiet.toService]
  · obtain ⟨call, -, same⟩ := sound.calling _ called
    have isReq : isRequest message = true := by
      rw [(Prod.mk.inj same).2]
      exact isRequest_iff.mpr call.isReq
    refine LocalStep.ofSameCalls rfl ?_ ?_ (List.Subset.refl _) quiet.received
    · rw [out, out, quiet.calling, quiet.outbox, called, List.filter_append,
        List.filter_cons_of_pos isReq, List.filter_nil]
      exact ((List.perm_append_singleton _ _).append_left _).subperm
    · rw [taken, taken, quiet.toService]

end Connection

section Service

theorem Sound.process (sound : p.Sound) (i : Nat) (message : Buffer) :
    ({ p with
        connection := { p.connection with toService := p.connection.toService.eraseIdx i }
        service := p.service.process message } : Peer).Sound := by
  have completions : (p.service.process message).completions = p.service.completions :=
    Service.process_completions _ _
  exact { sound with
    service := sound.service.process message
    honest := completions ▸ sound.honest }

theorem process_localStep (requested : p.Requested) {i : Nat} {message : Buffer}
    (found : p.connection.toService[i]? = some message) :
    LocalStep p { p with
      connection := { p.connection with toService := p.connection.toService.eraseIdx i }
      service := p.service.process message } := by
  have left := (Lib.Table.eraseIdx_perm found).symm
  obtain ⟨call, small, rfl⟩ := requested message (List.mem_of_getElem? found)
  have used : (p.service.process (some call.frame)).invocations = p.service.invocations ∨
      (p.service.process (some call.frame)).invocations =
        p.service.invocations ++ [⟨call.reqId, call.methodIdx, call.payload⟩] :=
    Service.process_invocations p.service small.lt
  refine LocalStep.ofSameCalls rfl (List.Subperm.refl _) ?_ ?_ rfl
  · refine List.Subperm.trans ?_ (left.append_right _).subperm
    simp only [taken]
    rcases used with same | same
    · rw [same]
      exact (List.sublist_cons_self _ _).subperm
    · rw [same, List.map_append, ← List.append_assoc]
      exact (List.perm_append_singleton _ _).subperm
  · exact (Service.process_completions p.service _).symm ▸ List.Subset.refl _

theorem Sound.complete (sound : p.Sound) {i : Nat} {unwinding : Bool} {res : ProtoMessage} {service : Service}
    (completed : p.service.complete i unwinding res = some service) :
    ({ p with service := service } : Peer).Sound :=
  { sound with
    service := sound.service.complete completed
    honest := fun frame member isRes =>
      (sound.honest frame member isRes).mono (Service.complete_logs completed).2 }

theorem complete_localStep {i : Nat} {unwinding : Bool} {res : ProtoMessage} {service : Service}
    (completed : p.service.complete i unwinding res = some service) :
    LocalStep p { p with service := service } := by
  obtain ⟨invocations, more⟩ := Service.complete_logs completed
  refine LocalStep.ofSameCalls rfl (List.Subperm.refl _) ?_ more rfl
  simp only [taken, invocations]
  exact List.Subperm.refl _

theorem Sound.respond (sound : p.Sound) {i : Nat} {response : Bytes}
    (found : p.service.responses[i]? = some response) :
    ({ p with
        connection := p.connection.send response
        service := { p.service with responses := p.service.responses.eraseIdx i } } : Peer).Sound := by
  have genuine := sound.service.genuine response (List.mem_of_getElem? found)
  have sent : ({ p with connection := p.connection.send response } : Peer).Sound := by
    apply sound.reconnect
    · exact sound.book
    · rfl
    · exact fun sent called => called
    · intro frame member
      rcases List.mem_append.mp member with old | new
      · exact .inl old
      · exact .inr fun _ => List.mem_singleton.mp new ▸ genuine
    · exact List.Subset.refl _
  exact { sent with
    service := ⟨sound.service.accounted,
      fun other left => sound.service.genuine other (List.eraseIdx_subset left)⟩ }

theorem respond_localStep (sound : p.Sound) {i : Nat} {response : Bytes}
    (found : p.service.responses[i]? = some response) :
    LocalStep p { p with
      connection := p.connection.send response
      service := { p.service with responses := p.service.responses.eraseIdx i } } := by
  have isRes := (sound.service.genuine response (List.mem_of_getElem? found)).isRes
  have notReq : ¬ isRequest response = true := by
    rw [isRequest_iff, isRes]
    exact fun same => by cases same
  refine LocalStep.ofSameCalls rfl ?_ (List.Subperm.refl _) (List.Subset.refl _) rfl
  simp only [out, Connection.send, List.filter_append, List.filter_cons_of_neg notReq, List.filter_nil,
    List.append_nil]
  exact List.Subperm.refl _

end Service

section Reply

theorem Sound.reply (sound : p.Sound) {outcome : RequestOutcome} (listed : outcome ∈ p.connection.results)
    (parseFromArray : Bytes → Bool) :
    ({ p with
        channel := p.channel.onReply outcome.number parseFromArray outcome.result outcome.buffer } :
      Peer).Sound := by
  obtain ⟨report, same, number, confirmed⟩ := Channel.onReply_eq p.channel outcome.number parseFromArray
    outcome.result outcome.buffer
  rw [same]
  exact { sound with
    numbered := ⟨sound.numbered.next, sound.numbered.ids⟩
    reports := by
      intro other member ok
      rcases List.mem_append.mp member with old | new
      · exact sound.reports other old ok
      · rw [List.mem_singleton.mp new] at ok ⊢
        obtain ⟨success, confirms⟩ := confirmed ok
        exact ⟨outcome.number, number, outcome.buffer,
          (sound.book.answered outcome listed success).1, confirms⟩ }

theorem reply_localStep (p : Peer) (reqId : UInt64) (parseFromArray : Bytes → Bool) (rc : RequestResult)
    (buffer : Buffer) :
    LocalStep p { p with channel := p.channel.onReply reqId parseFromArray rc buffer } := by
  obtain ⟨report, same, -⟩ := Channel.onReply_eq p.channel reqId parseFromArray rc buffer
  rw [same]
  exact LocalStep.ofSameCalls rfl (List.Subperm.refl _) (List.Subperm.refl _) (List.Subset.refl _) rfl

end Reply

/-- Everything a peer does by itself keeps its invariant and is a local step. -/
theorem Sound.step (sound : p.Sound) (requested : p.Requested) {e : Event}
    (few : ∀ methodIdx request, e = .callMethod methodIdx request →
      (p.channel.callMethod methodIdx request).calls.length < 2 ^ 64 - 1)
    (stepped : p.step e = some p') : p'.Sound ∧ LocalStep p p' := by
  cases e with
  | callMethod methodIdx request =>
      cases stepped
      exact ⟨sound.callMethod (few methodIdx request rfl), callMethod_localStep p methodIdx request⟩
  | request i running => exact ⟨sound.request stepped, request_localStep sound stepped⟩
  | connection e =>
      simp only [Peer.step, Option.ite_none_right_eq_some, Option.map_eq_some_iff] at stepped
      obtain ⟨env, connection, taken, rfl⟩ := stepped
      exact ⟨sound.environment env taken, environment_localStep sound env taken⟩
  | process i =>
      simp only [Peer.step, Option.map_eq_some_iff] at stepped
      obtain ⟨message, found, rfl⟩ := stepped
      exact ⟨sound.process i message, process_localStep requested found⟩
  | complete i unwinding res =>
      simp only [Peer.step, Option.map_eq_some_iff] at stepped
      obtain ⟨service, completed, rfl⟩ := stepped
      exact ⟨sound.complete completed, complete_localStep completed⟩
  | respond i =>
      simp only [Peer.step] at stepped
      split at stepped
      · cases stepped
      · rename_i response found
        cases stepped
        exact ⟨sound.respond found, respond_localStep sound found⟩
  | reply i parseFromArray =>
      simp only [Peer.step] at stepped
      split at stepped
      · cases stepped
      · rename_i outcome found
        split at stepped
        · cases stepped
        · cases stepped
          exact ⟨sound.reply (List.mem_of_getElem? found) parseFromArray, reply_localStep _ _ _ _ _⟩

end Peer

end CommonRpc
