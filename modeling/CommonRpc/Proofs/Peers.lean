/-
Module: CommonRpc.Proofs.Peers
Purpose: Calls and their answers between two peers. A request frame is in one place at a time: with its channel,
  with the connection, on the pipe, with the peer's service, or used up by an invocation; so a call causes at
  most one. A response frame with the code `ok` carries what a method of the peer filled in for the request of
  its number, wherever the frame is; so a call that is reported `ok` has the answer to that very call.
Trusted boundary: none
-/
import CommonRpc.Proofs.Peer

namespace CommonRpc.Peers

open Peer (LocalStep)

variable {p p' q q' client server : Peer} {frame : Bytes} {s s' : Peers} {side : Side}

section Pipe

theorem takeFrame_eq_some (took : takeFrame p = some (frame, p')) :
    ∃ rest, p.connection.outbox = frame :: rest ∧
      p' = { p with connection := { p.connection with outbox := rest } } := by
  unfold takeFrame at took
  split at took
  · cases took
  · rename_i rest outbox
    cases took
    exact ⟨rest, outbox, rfl⟩

theorem takeFrame_sound (sound : p.Sound) (took : takeFrame p = some (frame, p')) : p'.Sound := by
  obtain ⟨rest, outbox, rfl⟩ := takeFrame_eq_some took
  apply sound.reconnect
  · exact sound.book
  · rfl
  · exact fun sent called => called
  · intro other left
    rw [outbox]
    exact .inl (List.mem_cons_of_mem _ left)
  · exact List.Subset.refl _

/-- To take a frame and lose it is a local step. -/
theorem takeFrame_localStep (took : takeFrame p = some (frame, p')) : LocalStep p p' := by
  obtain ⟨rest, outbox, rfl⟩ := takeFrame_eq_some took
  refine LocalStep.ofSameCalls rfl ?_ (List.Subperm.refl _) (List.Subset.refl _) rfl
  rw [Peer.out, Peer.out, outbox]
  have fewer := (List.sublist_cons_self frame rest).filter isRequest
  exact (((List.Sublist.refl _).append ((List.Sublist.refl _).append fewer))).subperm

/-- A request frame that is taken was one of the peer's own. -/
theorem takeFrame_request (took : takeFrame p = some (frame, p')) (isReq : isRequest frame = true) :
    (frame :: p'.out).Perm p.out := by
  obtain ⟨rest, outbox, rfl⟩ := takeFrame_eq_some took
  simp only [Peer.out, outbox, List.filter_cons_of_pos isReq, ← List.append_assoc]
  exact List.perm_middle.symm

theorem receiveFrame_eq_some (received : receiveFrame p frame = some p') :
    ∃ c, p.connection.step (.received (some frame)) = some c ∧ p' = { p with connection := c } := by
  obtain ⟨c, stepped, rfl⟩ := Option.map_eq_some_iff.mp received
  exact ⟨c, stepped, rfl⟩

theorem receiveFrame_sound (sound : p.Sound) (received : receiveFrame p frame = some p') : p'.Sound := by
  obtain ⟨c, stepped, rfl⟩ := receiveFrame_eq_some received
  have arrives := Connection.received_arrives stepped
  apply sound.reconnect
  · exact Connection.step_consistent sound.book rfl stepped
  · exact arrives.issued
  · exact fun sent called => arrives.calling ▸ called
  · intro other member
    rcases arrives.outbox with same | same
    · exact .inl (same ▸ member)
    · rw [same] at member
      rcases List.mem_append.mp member with old | new
      · exact .inl old
      · rw [List.mem_singleton.mp new]
        have isControl : Connection.IsControl createTransferMsgPong := .inr rfl
        exact .inr fun isRes => absurd isRes isControl.not_request.2
  · exact arrives.received ▸ List.subset_append_left _ _

theorem receiveFrame_out (received : receiveFrame p frame = some p') : p'.out = p.out := by
  obtain ⟨c, stepped, rfl⟩ := receiveFrame_eq_some received
  have arrives := Connection.received_arrives stepped
  rw [Peer.out, Peer.out, arrives.calling]
  rcases arrives.outbox with same | same
  · rw [same]
  · rw [same, Peer.filter_send_control (.inr rfl)]

/-- A frame that arrives is taken only if it is a request, and once. -/
theorem receiveFrame_taken (received : receiveFrame p frame = some p') :
    p'.taken = p.taken ∨ isRequest frame = true ∧ p'.taken.Perm (some frame :: p.taken) := by
  obtain ⟨c, stepped, rfl⟩ := receiveFrame_eq_some received
  rcases (Connection.received_arrives stepped).toService with same | ⟨isReq, same⟩
  · left
    rw [Peer.taken, Peer.taken, same]
  · right
    refine ⟨isRequest_iff.mpr isReq, ?_⟩
    rw [Peer.taken, Peer.taken, same, List.append_assoc]
    exact List.perm_middle

end Pipe

/-- The invariant of one direction of calls. -/
structure Linked (client server : Peer) : Prop where
  /-- Each call has at most one request frame or invocation. -/
  tracked : (client.out.map some ++ server.taken).Subperm
    (client.channel.calls.map fun call => some call.frame)
  /-- The responses that arrived are the server's. -/
  received : ∀ message ∈ client.connection.received, getTransferMsgType message = .ok .res →
    ∃ frame, message = some frame ∧ Service.Genuine server.service.completions frame

section Links

theorem Linked.requested (linked : Linked client server) (sound : client.Sound) : server.Requested := by
  intro message waiting
  have listed := linked.tracked.subset (List.mem_append_right _ (List.mem_append_left _ waiting))
  obtain ⟨call, member, rfl⟩ := List.mem_map.mp listed
  exact ⟨call, sound.small call member, rfl⟩

/-- The client takes a step of its own. -/
theorem Linked.client_step (linked : Linked client server) (moved : LocalStep client p') : Linked p' server where
  tracked := by
    obtain ⟨new, calls, out⟩ := moved.calls
    rw [calls, List.map_append]
    have frames :=
      List.Subperm.append (List.Subperm.map (Option.some_injective _) out) (List.Subperm.refl server.taken)
    apply frames.trans
    rw [List.map_append, List.map_map, List.append_assoc]
    apply (List.perm_append_comm.append_left _).subperm.trans
    rw [← List.append_assoc]
    exact linked.tracked.append (List.Subperm.refl _)
  received := moved.received ▸ linked.received

/-- The server takes a step of its own. -/
theorem Linked.server_step (linked : Linked client server) (moved : LocalStep server p') : Linked client p' where
  tracked := ((List.Subperm.refl _).append moved.taken).trans linked.tracked
  received := by
    intro message arrived isRes
    obtain ⟨frame, same, genuine⟩ := linked.received message arrived isRes
    exact ⟨frame, same, genuine.mono moved.completions⟩

/-- A frame of the client arrives at the server. -/
theorem Linked.deliver (linked : Linked client server) (took : takeFrame client = some (frame, p'))
    (arrived : receiveFrame server frame = some q') : Linked p' q' := by
  have moved := takeFrame_localStep took
  have same : q'.service = server.service := by
    obtain ⟨c, -, rfl⟩ := receiveFrame_eq_some arrived
    rfl
  have calls : p'.channel.calls = client.channel.calls := by
    obtain ⟨rest, -, rfl⟩ := takeFrame_eq_some took
    rfl
  constructor
  · rw [calls]
    refine List.Subperm.trans ?_ linked.tracked
    rcases receiveFrame_taken arrived with kept | ⟨isReq, grown⟩
    · rw [kept]
      obtain ⟨rest, outbox, rfl⟩ := takeFrame_eq_some took
      obtain ⟨new, none, out⟩ := moved.calls
      have nothing : new = [] := List.self_eq_append_right.mp none
      rw [nothing, List.map_nil, List.append_nil] at out
      exact (List.Subperm.map (Option.some_injective _) out).append (List.Subperm.refl _)
    · have frames := ((takeFrame_request took isReq).map some).append_right server.taken
      refine List.Perm.subperm (List.Perm.trans ?_ frames)
      exact (grown.append_left _).trans List.perm_middle
  · rw [same, moved.received]
    exact linked.received

/-- A frame of the server arrives at the client. -/
theorem Linked.answer (linked : Linked client server) (sound : server.Sound)
    (took : takeFrame server = some (frame, p')) (arrived : receiveFrame client frame = some q') :
    Linked q' p' := by
  obtain ⟨rest, outbox, rfl⟩ := takeFrame_eq_some took
  have out := receiveFrame_out arrived
  obtain ⟨c, stepped, rfl⟩ := receiveFrame_eq_some arrived
  constructor
  · rw [out]
    exact linked.tracked
  · intro message member isRes
    rw [(Connection.received_arrives stepped).received] at member
    rcases List.mem_append.mp member with old | new
    · exact linked.received message old isRes
    · rw [List.mem_singleton.mp new] at isRes ⊢
      exact ⟨frame, rfl, sound.honest frame (outbox ▸ List.mem_cons_self) isRes⟩

end Links

/-- The invariant of the two peers. -/
structure Consistent (s : Peers) : Prop where
  sound : ∀ side, (s side).Sound
  linked : ∀ side : Side, Linked (s side) (s side.other)

theorem Side.other_other (side : Side) : side.other.other = side := by
  cases side with
  | left => rfl
  | right => rfl

theorem Side.other_ne (side : Side) : side.other ≠ side := by
  cases side with
  | left => decide
  | right => decide

/-- Everything is said by the two ends, seen from either. -/
theorem Consistent.ofEnds (side : Side) (sound : (s side).Sound) (sound' : (s side.other).Sound)
    (forth : Linked (s side) (s side.other)) (back : Linked (s side.other) (s side)) : Consistent s := by
  constructor
  · intro x
    cases x with
    | left =>
        cases side with
        | left => exact sound
        | right => exact sound'
    | right =>
        cases side with
        | left => exact sound'
        | right => exact sound
  · intro x
    cases x with
    | left =>
        cases side with
        | left => exact forth
        | right => exact back
    | right =>
        cases side with
        | left => exact back
        | right => exact forth

theorem Consistent.back (good : Consistent s) (side : Side) : Linked (s side.other) (s side) := by
  have linked := good.linked side.other
  rwa [Side.other_other] at linked

/-- One end takes a step of its own. -/
theorem Consistent.update (good : Consistent s) (sound : p'.Sound) (moved : LocalStep (s side) p') :
    Consistent (Function.update s side p') := by
  have here : Function.update s side p' side = p' := Function.update_self side p' s
  have there : Function.update s side p' side.other = s side.other :=
    Function.update_of_ne (Side.other_ne side) p' s
  apply Consistent.ofEnds side
  · rwa [here]
  · rw [there]
    exact good.sound side.other
  · rw [here, there]
    exact (good.linked side).client_step moved
  · rw [here, there]
    exact (good.back side).server_step moved

theorem step_consistent (good : Consistent s) {e : Event} (few : fewCalls s e = true)
    (stepped : step s e = some s') : Consistent s' := by
  cases e with
  | on side e =>
      obtain ⟨p', taken, rfl⟩ := Option.map_eq_some_iff.mp stepped
      have requested := (good.back side).requested (good.sound side.other)
      have bound : ∀ methodIdx request, e = .callMethod methodIdx request →
          ((s side).channel.callMethod methodIdx request).calls.length < 2 ^ 64 - 1 := by
        rintro methodIdx request rfl
        have room : (s side).channel.calls.length + 1 < 2 ^ 64 - 1 := of_decide_eq_true few
        rcases Channel.callMethod_started (s side).channel methodIdx request with
          ⟨calls, -⟩ | ⟨call, -, -, calls, -⟩
        · rw [calls]
          exact Nat.lt_of_succ_lt room
        · rw [calls, List.length_append, List.length_singleton]
          exact room
      obtain ⟨sound, moved⟩ := (good.sound side).step requested bound taken
      exact good.update sound moved
  | deliver side =>
      simp only [step] at stepped
      split at stepped
      · cases stepped
      · rename_i frame p' took
        obtain ⟨q', arrived, rfl⟩ := Option.map_eq_some_iff.mp stepped
        have here : Function.update (Function.update s side p') side.other q' side = p' := by
          rw [Function.update_of_ne (Side.other_ne side).symm, Function.update_self]
        have there : Function.update (Function.update s side p') side.other q' side.other = q' :=
          Function.update_self _ _ _
        apply Consistent.ofEnds side
        · rw [here]
          exact takeFrame_sound (good.sound side) took
        · rw [there]
          exact receiveFrame_sound (good.sound side.other) arrived
        · rw [here, there]
          exact (good.linked side).deliver took arrived
        · rw [here, there]
          exact (good.back side).answer (good.sound side) took arrived
  | lose side =>
      obtain ⟨⟨frame, p'⟩, took, rfl⟩ := Option.map_eq_some_iff.mp stepped
      exact good.update (takeFrame_sound (good.sound side) took) (takeFrame_localStep took)

theorem initial_consistent (pingTimeout : Int) (gservice : Side → Option ServiceDescriptor) :
    Consistent (initial pingTimeout gservice) where
  sound := fun side => {
    book := Connection.initial_consistent true pingTimeout
    numbered := ⟨rfl, rfl⟩
    few := by
      change (0 : Nat) < 2 ^ 64 - 1
      decide
    small := fun _ member => absurd member List.not_mem_nil
    numbers := List.Subperm.refl _
    pending := fun _ member => absurd member List.not_mem_nil
    calling := fun _ called => by cases called
    service := ⟨List.Perm.refl _, fun _ member => absurd member List.not_mem_nil⟩
    honest := fun _ member => absurd member List.not_mem_nil
    reports := fun _ member => absurd member List.not_mem_nil }
  linked := fun side => ⟨List.Subperm.refl _, fun _ member => absurd member List.not_mem_nil⟩

theorem run_consistent {pingTimeout : Int} {gservice : Side → Option ServiceDescriptor} {es : List Event}
    (ran : (machine.restrict fewCalls).run (initial pingTimeout gservice) es = some s) : Consistent s := by
  apply Lib.Machine.run_invariant (P := Consistent) _ (initial_consistent pingTimeout gservice) ran
  intro a e b good stepped
  obtain ⟨few, taken⟩ := Lib.Machine.restrict_step.mp stepped
  exact step_consistent good few taken

section Outcome

/-- The invocation a call asks for. -/
def invocationOf (call : Call) : Invocation := ⟨call.reqId, call.methodIdx, call.payload⟩

theorem Linked.invocations_subperm (linked : Linked client server) :
    (server.service.invocations.map fun invocation => some invocation.frame).Subperm
      (client.channel.calls.map fun call => some call.frame) :=
  (List.sublist_append_right _ _).subperm.trans ((List.sublist_append_right _ _).subperm.trans linked.tracked)

/-- Every invocation is the one that some call asked for. -/
theorem Linked.invocation_called (linked : Linked client server) (sound : client.Sound)
    {invocation : Invocation} (member : invocation ∈ server.service.invocations) :
    ∃ call ∈ client.channel.calls, invocation = invocationOf call := by
  have listed := linked.invocations_subperm.subset (List.mem_map_of_mem member)
  obtain ⟨call, called, same⟩ := List.mem_map.mp listed
  obtain ⟨number, methodIdx, payload⟩ :=
    reqFrame_inj call.reqId (sound.small call called).lt (Option.some.inj same)
  refine ⟨call, called, ?_⟩
  rw [invocationOf, number, methodIdx, payload]

/-- No two invocations belong to one call. -/
theorem Linked.invocations_nodup (linked : Linked client server) (sound : client.Sound) :
    (server.service.invocations.map Invocation.number).Nodup := by
  have frames : (client.channel.calls.map fun call => some call.frame).Nodup := by
    apply List.Nodup.map_on _ (List.Nodup.of_map Call.reqId sound.ids_nodup)
    intro call member other member' same
    apply List.inj_on_of_nodup_map sound.ids_nodup member member'
    exact (reqFrame_inj call.reqId (sound.small call member).lt (Option.some.inj same)).1
  have distinct := List.Nodup.of_map _ (nodup_of_subperm linked.invocations_subperm frames)
  apply List.Nodup.map_on _ distinct
  intro invocation member other member' same
  obtain ⟨call, called, rfl⟩ := linked.invocation_called sound member
  obtain ⟨call', called', rfl⟩ := linked.invocation_called sound member'
  rw [List.inj_on_of_nodup_map sound.ids_nodup called called' same]

/-- The response behind a report that says `ok`. -/
theorem Linked.reported (linked : Linked client server) (sound : client.Sound) {report : Report}
    (member : report ∈ client.channel.reports) (ok : report.result = .ok) :
    ∃ done ∈ server.service.completions, report.reqId = some done.invocation.number ∧ done.rc = .ok ∧
      report.response = some done.response.serialization := by
  obtain ⟨reqId, number, message, arrived, isRes, carries, code, view, bytes, shown, read, response⟩ :=
    sound.reports report member ok
  obtain ⟨frame, rfl, number', rc, payload, rfl, small, answered⟩ := linked.received message arrived isRes
  have short : payload.length < 2 ^ 32 := Nat.lt_of_le_of_lt small (by decide)
  rw [getMsgNumberRes_resFrame number' short rc] at carries
  rw [getMsgResponseCodeRes_resFrame number' short rc] at code
  cases carries
  cases code
  obtain ⟨done, completed, sameNumber, sameCode, samePayload⟩ := answered rfl
  obtain ⟨view', shown', read'⟩ :=
    getSerializedProtoMessage_frame .res payload reqId [ResponseResult.ok.toByte] short
  obtain rfl := Except.ok.inj (shown'.symm.trans shown)
  obtain rfl := Except.ok.inj (read'.symm.trans read)
  exact ⟨done, completed, by rw [number, sameNumber], sameCode, by rw [response, samePayload]⟩

end Outcome

end CommonRpc.Peers
