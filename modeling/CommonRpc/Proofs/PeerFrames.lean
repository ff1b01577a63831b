/-
Module: CommonRpc.Proofs.PeerFrames
Purpose: The frames a peer hands to its transport. A peer never looks at what it has sent, so it takes the same
  steps behind any frames that are still under way; and every frame it sends has a size that a reader accepts.
Trusted boundary: none
-/
import CommonRpc.Proofs.Peers
import CommonRpc.Proofs.TcpPipeFrames

namespace CommonRpc

namespace Connection

/-- The connection with frames under way before its own. -/
def behind (c : Connection) (frames : List Bytes) : Connection := { c with outbox := frames ++ c.outbox }

variable {c : Connection} {frames : List Bytes}

theorem ite_behind {allowed : Prop} [Decidable allowed] {a b a' b' : Connection} (yes : a' = a.behind frames)
    (no : b' = b.behind frames) : (if allowed then a' else b') = (if allowed then a else b).behind frames := by
  split
  · exact yes
  · exact no

theorem send_behind (message : Bytes) : (c.behind frames).send message = (c.send message).behind frames := by
  simp [send, behind]

theorem completeRequest_behind (number : UInt64) (result : RequestResult) (resMsg : Buffer) :
    (c.behind frames).completeRequest number result resMsg =
      (c.completeRequest number result resMsg).behind frames := by
  have same : (c.behind frames).find number = c.find number := rfl
  unfold completeRequest
  rw [same]
  cases c.find number <;> rfl

theorem processRequestSent_behind (number : UInt64) :
    (c.behind frames).processRequestSent number = (c.processRequestSent number).behind frames := by
  have same : (c.behind frames).find number = c.find number := rfl
  unfold processRequestSent
  rw [same]
  cases c.find number with
  | none => rfl
  | some data =>
      simp only
      split <;> rfl

theorem sendCallback_behind (number : UInt64) (result : PipeOpRes) :
    (c.behind frames).sendCallback number result = (c.sendCallback number result).behind frames := by
  cases result with
  | success => exact processRequestSent_behind number
  | canceled | failed | timeout => exact completeRequest_behind number _ _

theorem requestAsync_behind (message : Bytes) (running : Bool) :
    (c.behind frames).requestAsync message running = (c.requestAsync message running).behind frames := by
  unfold requestAsync
  cases getMsgNumberReq (some message) <;> exact ite_behind rfl rfl

theorem dispatchReceiveEvent_behind (message : Buffer) :
    (c.behind frames).dispatchReceiveEvent message = (c.dispatchReceiveEvent message).behind frames := by
  unfold dispatchReceiveEvent dispatch
  cases getTransferMsgType message with
  | error e => rfl
  | ok kind =>
      cases kind with
      | req =>
          have handled : (c.behind frames).handleReceivedRequest message =
              (c.handleReceivedRequest message).behind frames := by
            unfold handleReceivedRequest
            exact ite_behind rfl rfl
          simp only [bind, Except.bind, pure, Except.pure, handled]
          rfl
      | res =>
          simp only [handleReceivedResponse]
          cases getMsgNumberRes message with
          | error e => rfl
          | ok number =>
              simp only [bind, Except.bind, pure, Except.pure, completeRequest_behind]
              rfl
      | ping =>
          simp only [bind, Except.bind, pure, Except.pure, send_behind]
          rfl
      | pong => rfl
      | unnamed _ _ => rfl

theorem processWatchEvent_behind (now : Int) :
    (c.behind frames).processWatchEvent now = (c.processWatchEvent now).behind frames := by
  unfold processWatchEvent
  apply ite_behind
  · rfl
  · apply ite_behind
    · rfl
    · rw [send_behind]
      rfl

theorem watch_behind (now : Int) : (c.behind frames).watch now = (c.watch now).behind frames := by
  unfold watch
  rw [processWatchEvent_behind]
  exact ite_behind rfl rfl

/-- A connection does the same whatever it has sent before. -/
theorem step_behind (e : Event) : (c.behind frames).step e = (c.step e).map fun c' => c'.behind frames := by
  have guarded {allowed : Prop} [Decidable allowed] {c₁ c₂ : Connection} (same : c₁ = c₂.behind frames) :
      (if allowed then some c₁ else none) =
        (if allowed then some c₂ else none).map fun c' : Connection => c'.behind frames := by
    split
    · exact congrArg some same
    · rfl
  cases e with
  | start =>
      apply guarded
      unfold start
      exact ite_behind rfl rfl
  | deactivate => exact guarded rfl
  | requestAsync message running => exact guarded (requestAsync_behind message running)
  | requestSend =>
      simp only [step]
      change Option.map _ c.calling = _
      cases c.calling with
      | none => rfl
      | some sent => simp [requestSend, send, behind]
  | sendDone number result =>
      exact guarded (sendCallback_behind (c := { c with sending := c.sending.erase number }) number result)
  | received message =>
      exact guarded (dispatchReceiveEvent_behind (c := { c with received := c.received ++ [message] }) message)
  | receiveEnd result => exact guarded rfl
  | timerExpires timerId =>
      simp only [step]
      change Option.map _ (c.timer.expire timerId) = _
      cases c.timer.expire timerId <;> rfl
  | timerHandler timerId =>
      have timer : (c.behind frames).timer = c.timer := rfl
      simp only [step, timer]
      rcases c.timer.handle timerId with _ | ⟨timer, _ | number⟩
      · rfl
      · rfl
      · exact congrArg some (completeRequest_behind (c := { c with timer }) number .timeout none)
  | watch now => exact guarded (watch_behind now)
  | respond message => exact congrArg some (send_behind message)

end Connection

namespace Peer

/-- The peer with frames under way before its own. -/
def behind (p : Peer) (frames : List Bytes) : Peer := { p with connection := p.connection.behind frames }

variable {p p' : Peer} {frames : List Bytes} {e : Event}

theorem step_behind (stepped : p.step e = some p') : (p.behind frames).step e = some (p'.behind frames) := by
  have connects {e : Connection.Event} {c : Connection} (taken : p.connection.step e = some c) :
      (p.behind frames).connection.step e = some (c.behind frames) :=
    (Connection.step_behind e).trans (by rw [taken]; rfl)
  cases e with
  | callMethod methodIdx request =>
      cases stepped
      rfl
  | request i running =>
      simp only [step] at stepped
      split at stepped
      · cases stepped
      · next reqId message found =>
          obtain ⟨connection, taken, rfl⟩ := Option.map_eq_some_iff.mp stepped
          have found : (p.behind frames).channel.pending[i]? = some (reqId, message) := found
          simp only [step, found, connects taken]
          rfl
  | connection e =>
      simp only [step, Option.ite_none_right_eq_some, Option.map_eq_some_iff] at stepped
      obtain ⟨env, connection, taken, rfl⟩ := stepped
      simp only [step, env, if_true, connects taken]
      rfl
  | process i | complete i unwinding res =>
      obtain ⟨_, found, rfl⟩ := Option.map_eq_some_iff.mp stepped
      exact Option.map_eq_some_iff.mpr ⟨_, found, rfl⟩
  | respond i =>
      simp only [step] at stepped
      split at stepped
      · cases stepped
      · next response found =>
          obtain ⟨connection, taken, rfl⟩ := Option.map_eq_some_iff.mp stepped
          have found : (p.behind frames).service.responses[i]? = some response := found
          simp only [step, found, connects taken]
          rfl
  | reply i parseFromArray =>
      simp only [step] at stepped
      split at stepped
      · cases stepped
      · next outcome found =>
          split at stepped
          · cases stepped
          · next fresh =>
              cases stepped
              have found : (p.behind frames).connection.results[i]? = some outcome := found
              simp only [step, found]
              exact if_neg fresh

/-! ### The sizes of frames -/

theorem validMessage_call {call : Call} (small : call.Small) : ValidMessage call.frame := by
  have bound : call.payload.length ≤ MaxRequestProtoSize := small
  simp only [ValidMessage, Call.frame, reqFrame, length_frame, length_fromUint32ToBigEndian]
  simp only [MaxRequestProtoSize, MaxTransferMessageSize, sHeaderBytesCount, sMessageTypeBytesCount,
    sSerializedProtoMessageSizeBytesCount, sMessageNumberBytesCount] at bound ⊢
  omega

theorem validMessage_genuine {completions : List Completion} {frame : Bytes}
    (genuine : Service.Genuine completions frame) : ValidMessage frame := by
  obtain ⟨number, rc, payload, rfl, small, -⟩ := genuine
  simp only [ValidMessage, resFrame, length_frame, List.length_singleton]
  simp only [MaxResponseProtoSize, MaxTransferMessageSize, sHeaderBytesCount, sMessageTypeBytesCount,
    sSerializedProtoMessageSizeBytesCount, sMessageNumberBytesCount] at small ⊢
  omega

theorem validMessage_control {frame : Bytes} (isControl : Connection.IsControl frame) : ValidMessage frame := by
  rcases isControl with rfl | rfl
  · exact ⟨by decide, by decide⟩
  · exact ⟨by decide, by decide⟩

/-- The connection sends frames that a reader accepts, and receives nothing. -/
structure Speaks (c c' : Connection) : Prop where
  received : c'.received = c.received
  sent : ∃ new, c'.outbox = c.outbox ++ new ∧ ∀ frame ∈ new, ValidMessage frame

theorem Speaks.nothing {c c' : Connection} (received : c'.received = c.received) (outbox : c'.outbox = c.outbox) :
    Speaks c c' := ⟨received, [], by rw [outbox, List.append_nil], by simp⟩

theorem Speaks.one {c c' : Connection} {frame : Bytes} (valid : ValidMessage frame)
    (received : c'.received = c.received) (sent : c'.outbox = c.outbox ++ [frame]) : Speaks c c' :=
  ⟨received, [frame], sent, by simpa using valid⟩

theorem Sound.speaks (sound : p.Sound) (stepped : p.step e = some p') : Speaks p.connection p'.connection := by
  cases e with
  | callMethod methodIdx request =>
      cases stepped
      exact .nothing rfl rfl
  | request i running =>
      obtain ⟨reqId, message, found, taken, -⟩ := request_eq stepped
      obtain ⟨call, member, same⟩ := sound.pending _ (List.mem_of_getElem? found)
      obtain ⟨rfl, rfl⟩ := Prod.mk.inj same
      have carries : getMsgNumberReq (some call.frame) = .ok call.reqId :=
        getMsgNumberReq_reqFrame _ (sound.small call member).lt _
      obtain ⟨-, outbox, -, received, -⟩ := Connection.requestAsync_files carries taken
      exact .nothing received outbox
  | connection e =>
      simp only [Peer.step, Option.ite_none_right_eq_some, Option.map_eq_some_iff] at stepped
      obtain ⟨env, connection, taken, rfl⟩ := stepped
      rcases Connection.environment_passes env taken with
        ⟨quiet⟩ | ⟨frame, isControl, quiet⟩ | ⟨number, message, called, quiet⟩
      · exact .nothing quiet.received quiet.outbox
      · exact .one (validMessage_control isControl) quiet.received quiet.outbox
      · obtain ⟨call, member, same⟩ := sound.calling _ called
        rw [(Prod.mk.inj same).2] at quiet
        exact .one (validMessage_call (sound.small call member)) quiet.received quiet.outbox
  | process i | complete i unwinding res =>
      obtain ⟨_, -, rfl⟩ := Option.map_eq_some_iff.mp stepped
      exact .nothing rfl rfl
  | respond i =>
      simp only [Peer.step] at stepped
      split at stepped
      · cases stepped
      · next response found =>
          cases stepped
          exact .one (validMessage_genuine (sound.service.genuine response (List.mem_of_getElem? found))) rfl rfl
  | reply i parseFromArray =>
      simp only [Peer.step] at stepped
      split at stepped
      · cases stepped
      · split at stepped
        · cases stepped
        · cases stepped
          exact .nothing rfl rfl

end Peer

end CommonRpc
