/-
Module: CommonRpc.Proofs.ConnectionTraffic
Purpose: Which frames pass through a connection in one step, and in which direction: to the transport, to the
  service, or into the record of what was received. A system of connections is verified from these facts alone.
Trusted boundary: none
-/
import CommonRpc.Core.Connection

namespace CommonRpc.Connection

variable {c c' : Connection}

/-- No frame passes through the connection and no request is filed. -/
structure Quiet (c c' : Connection) : Prop where
  outbox : c'.outbox = c.outbox
  toService : c'.toService = c.toService
  calling : c'.calling = c.calling
  received : c'.received = c.received
  issued : c'.issued = c.issued

theorem completeRequest_quiet (c : Connection) (number : UInt64) (result : RequestResult) (resMsg : Buffer) :
    Quiet c (c.completeRequest number result resMsg) := by
  unfold completeRequest
  split
  · exact ⟨rfl, rfl, rfl, rfl, rfl⟩
  · exact ⟨rfl, rfl, rfl, rfl, rfl⟩

theorem processRequestSent_quiet (c : Connection) (number : UInt64) :
    Quiet c (c.processRequestSent number) := by
  unfold processRequestSent
  split
  · exact ⟨rfl, rfl, rfl, rfl, rfl⟩
  · split
    · exact ⟨rfl, rfl, rfl, rfl, rfl⟩
    · exact ⟨rfl, rfl, rfl, rfl, rfl⟩

theorem sendCallback_quiet (c : Connection) (number : UInt64) (result : PipeOpRes) :
    Quiet c (c.sendCallback number result) := by
  cases result with
  | success => exact processRequestSent_quiet c number
  | canceled => exact completeRequest_quiet c number _ _
  | failed => exact completeRequest_quiet c number _ _
  | timeout => exact completeRequest_quiet c number _ _

/-- A frame of the monitoring: a ping or a pong. -/
def IsControl (frame : Bytes) : Prop := frame = createTransferMsgPing ∨ frame = createTransferMsgPong

/-- What a step of the environment lets pass. -/
inductive Passes (c c' : Connection) : Prop where
  | nothing (quiet : Quiet c c')
  | control (frame : Bytes) (isControl : IsControl frame)
      (quiet : Quiet { c with outbox := c.outbox ++ [frame] } c')
  | request (number : UInt64) (message : Bytes) (called : c.calling = some (number, message))
      (quiet : Quiet { c with outbox := c.outbox ++ [message], calling := none } c')

theorem watch_passes (c : Connection) (now : Int) : Passes c (c.watch now) := by
  have passed : Passes c (c.processWatchEvent now) := by
    simp only [processWatchEvent]
    split
    · exact .nothing ⟨rfl, rfl, rfl, rfl, rfl⟩
    · split
      · exact .nothing ⟨rfl, rfl, rfl, rfl, rfl⟩
      · exact .control createTransferMsgPing (.inl rfl) ⟨rfl, rfl, rfl, rfl, rfl⟩
  simp only [watch]
  split
  · rcases passed with ⟨quiet⟩ | ⟨frame, isControl, quiet⟩ | ⟨number, message, called, quiet⟩
    · exact .nothing ⟨quiet.outbox, quiet.toService, quiet.calling, quiet.received, quiet.issued⟩
    · exact .control frame isControl
        ⟨quiet.outbox, quiet.toService, quiet.calling, quiet.received, quiet.issued⟩
    · exact .request number message called
        ⟨quiet.outbox, quiet.toService, quiet.calling, quiet.received, quiet.issued⟩
  · exact passed

theorem environment_passes {e : Event} (env : e.isEnvironment = true) (stepped : c.step e = some c') :
    Passes c c' := by
  cases e with
  | start =>
      simp only [step, Option.ite_none_right_eq_some, Option.some.injEq] at stepped
      obtain ⟨-, rfl⟩ := stepped
      unfold start
      split
      · exact .nothing ⟨rfl, rfl, rfl, rfl, rfl⟩
      · exact .nothing ⟨rfl, rfl, rfl, rfl, rfl⟩
  | deactivate =>
      simp only [step, Option.ite_none_right_eq_some, Option.some.injEq] at stepped
      obtain ⟨-, rfl⟩ := stepped
      exact .nothing ⟨rfl, rfl, rfl, rfl, rfl⟩
  | requestAsync message running => cases env
  | requestSend =>
      simp only [step, Option.map_eq_some_iff] at stepped
      obtain ⟨⟨number, message⟩, called, rfl⟩ := stepped
      exact .request number message called ⟨rfl, rfl, rfl, rfl, rfl⟩
  | sendDone number result =>
      simp only [step, Option.ite_none_right_eq_some, Option.some.injEq] at stepped
      obtain ⟨-, rfl⟩ := stepped
      have quiet := sendCallback_quiet { c with sending := c.sending.erase number } number result
      exact .nothing ⟨quiet.outbox, quiet.toService, quiet.calling, quiet.received, quiet.issued⟩
  | received message => cases env
  | receiveEnd result =>
      simp only [step, Option.ite_none_right_eq_some, Option.some.injEq] at stepped
      obtain ⟨-, rfl⟩ := stepped
      exact .nothing ⟨rfl, rfl, rfl, rfl, rfl⟩
  | timerExpires timerId =>
      simp only [step, Option.map_eq_some_iff] at stepped
      obtain ⟨timer', -, rfl⟩ := stepped
      exact .nothing ⟨rfl, rfl, rfl, rfl, rfl⟩
  | timerHandler timerId =>
      simp only [step] at stepped
      split at stepped
      · cases stepped
      · cases stepped
        exact .nothing ⟨rfl, rfl, rfl, rfl, rfl⟩
      · rename_i timer' number handled
        cases stepped
        have quiet := completeRequest_quiet { c with timer := timer' } number .timeout none
        exact .nothing ⟨quiet.outbox, quiet.toService, quiet.calling, quiet.received, quiet.issued⟩
  | watch now =>
      simp only [step, Option.ite_none_right_eq_some, Option.some.injEq] at stepped
      obtain ⟨-, rfl⟩ := stepped
      exact watch_passes c now
  | respond message => cases env

/-- What the arrival of a frame lets pass: a request goes to the service, a ping is answered. -/
structure Arrives (c c' : Connection) (message : Buffer) : Prop where
  received : c'.received = c.received ++ [message]
  calling : c'.calling = c.calling
  issued : c'.issued = c.issued
  toService : c'.toService = c.toService ∨
    getTransferMsgType message = .ok .req ∧ c'.toService = c.toService ++ [message]
  outbox : c'.outbox = c.outbox ∨ c'.outbox = c.outbox ++ [createTransferMsgPong]

theorem received_arrives {message : Buffer} (stepped : c.step (.received message) = some c') :
    Arrives c c' message := by
  simp only [step, Option.ite_none_right_eq_some, Option.some.injEq] at stepped
  obtain ⟨-, rfl⟩ := stepped
  unfold dispatchReceiveEvent dispatch
  cases type : getTransferMsgType message with
  | error e => exact ⟨rfl, rfl, rfl, .inl rfl, .inl rfl⟩
  | ok kind =>
      cases kind with
      | req =>
          cases present : c.hasService with
          | false =>
              simp only [handleReceivedRequest]
              exact ⟨rfl, rfl, rfl, .inl rfl, .inl rfl⟩
          | true =>
              simp only [handleReceivedRequest]
              exact ⟨rfl, rfl, rfl, .inr ⟨type, rfl⟩, .inl rfl⟩
      | res =>
          simp only [handleReceivedResponse]
          cases carries : getMsgNumberRes message with
          | error e => exact ⟨rfl, rfl, rfl, .inl rfl, .inl rfl⟩
          | ok number =>
              have quiet := completeRequest_quiet { c with received := c.received ++ [message] } number .ok
                message
              exact ⟨quiet.received, quiet.calling, quiet.issued, .inl quiet.toService, .inl quiet.outbox⟩
      | ping => exact ⟨rfl, rfl, rfl, .inl rfl, .inr rfl⟩
      | pong => exact ⟨rfl, rfl, rfl, .inl rfl, .inl rfl⟩
      | unnamed _ _ => exact ⟨rfl, rfl, rfl, .inl rfl, .inl rfl⟩

/-- What `request_async` does with a frame that carries a number. -/
theorem requestAsync_files {message : Bytes} {running : Bool} {number : UInt64}
    (carries : getMsgNumberReq (some message) = .ok number)
    (stepped : c.step (.requestAsync message running) = some c') :
    c.calling = none ∧ c'.outbox = c.outbox ∧ c'.toService = c.toService ∧ c'.received = c.received ∧
      (c'.calling = none ∧ c'.issued = c.issued ∨
        c'.calling = some (number, message) ∧ c'.issued = c.issued ++ [number]) := by
  simp only [step, Option.ite_none_right_eq_some, Option.some.injEq] at stepped
  obtain ⟨unlocked, rfl⟩ := stepped
  have free : c.calling = none := Option.isNone_iff_eq_none.mp unlocked
  unfold requestAsync
  split
  · exact ⟨free, rfl, rfl, rfl, .inl ⟨free, rfl⟩⟩
  · rw [carries]
    exact ⟨free, rfl, rfl, rfl, .inr ⟨rfl, rfl⟩⟩

end CommonRpc.Connection
