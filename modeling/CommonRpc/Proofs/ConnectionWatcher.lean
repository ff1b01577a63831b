/-
Module: CommonRpc.Proofs.ConnectionWatcher
Purpose: The monitoring of a connection. A check looks at two things the watcher remembers, which are determined by
  the checks since the latest activity: the first one drops the flag, the second one starts the waiting, and the
  later ones leave both alone. Activity is counted at the end of the dispatch of a received message, so a message
  whose dispatch throws does not count: an empty one, and a response that is not a valid frame.
Trusted boundary: none
-/
import CommonRpc.Core.Connection
import CommonRpc.Proofs.TransferMessageReading

namespace CommonRpc

open Lib

/-! ### The checks of the watcher -/

/-- What a check does to the connection. -/
inductive WatchAction where
  | none
  | sendPing
  | deactivate
deriving DecidableEq, Repr

/-- What happens to a watcher. -/
inductive WatchEvent where
  | activity
  | check (now : Int)
deriving DecidableEq, Repr

namespace ConnectionWatcher

variable {w : ConnectionWatcher} {period : Int} {checks : List Int}

/-- What a check at the given time decides. -/
def watchAction (w : ConnectionWatcher) (now : Int) : WatchAction :=
  if w.isConnectionNotResponding now then .deactivate
  else if w.activityFlag then .none
  else .sendPing

/-- The watcher after an event. -/
def next (w : ConnectionWatcher) : WatchEvent → ConnectionWatcher
  | .activity => w.setActivityFlag
  | .check now =>
      match w.watchAction now with
      | .none => w.checkAndDropActivityFlag.1
      | .sendPing => w.checkAndDropActivityFlag.1.setPingWaiting now
      | .deactivate => w

/-- The watcher after some events, from its constructor on. -/
def after (period : Int) (es : List WatchEvent) : ConnectionWatcher :=
  es.foldl next { pingPeriod := period }

end ConnectionWatcher

/-- The times of the checks since the latest activity, or since the beginning. -/
def checksSinceActivity (es : List WatchEvent) : List Int :=
  es.foldl (fun checks e => match e with | .activity => [] | .check now => checks ++ [now]) []

/-- A check of the connection is a check of its watcher and what the watcher decides. -/
theorem Connection.processWatchEvent_eq (c : Connection) (now : Int) :
    c.processWatchEvent now =
      match c.watcher.watchAction now with
      | .none => { c with watcher := c.watcher.next (.check now) }
      | .sendPing => { c.send createTransferMsgPing with watcher := c.watcher.next (.check now) }
      | .deactivate => c.deactivate := by
  unfold Connection.processWatchEvent ConnectionWatcher.next ConnectionWatcher.watchAction
  cases responding : c.watcher.isConnectionNotResponding now with
  | true => simp
  | false =>
      cases flag : c.watcher.activityFlag with
      | true => simp [ConnectionWatcher.checkAndDropActivityFlag, responding, flag]
      | false => simp [ConnectionWatcher.checkAndDropActivityFlag, responding, flag]

namespace ConnectionWatcher

/-- What the watcher remembers of the checks since the latest activity. -/
structure Watched (period : Int) (checks : List Int) (w : ConnectionWatcher) : Prop where
  pingPeriod : w.pingPeriod = period
  activityFlag : w.activityFlag = checks.isEmpty
  startPingWaiting : w.startPingWaiting = checks[1]?

/-- The decision of a check by the checks before it. -/
def decision (period : Int) (checks : List Int) (now : Int) : WatchAction :=
  match checks with
  | [] => .none
  | [_] => .sendPing
  | _ :: second :: _ => if second + period < now then .deactivate else .sendPing

theorem Watched.watchAction_eq (watched : Watched period checks w) (now : Int) :
    w.watchAction now = decision period checks now := by
  obtain ⟨pingPeriod, flag, waiting⟩ := watched
  match checks with
  | [] => simp [watchAction, decision, isConnectionNotResponding, flag, waiting]
  | [first] => simp [watchAction, decision, isConnectionNotResponding, flag, waiting]
  | first :: second :: later => simp [watchAction, decision, isConnectionNotResponding, flag, waiting, pingPeriod]

/-- The first check drops the flag, the second one starts the waiting, and the others change nothing. -/
theorem Watched.check (watched : Watched period checks w) (now : Int) :
    Watched period (checks ++ [now]) (w.next (.check now)) := by
  have action := watched.watchAction_eq now
  obtain ⟨pingPeriod, flag, waiting⟩ := watched
  match checks with
  | [] =>
      simp only [next, action, decision]
      exact ⟨pingPeriod, rfl, waiting⟩
  | [first] =>
      simp only [next, action, decision]
      have none : w.startPingWaiting = none := waiting
      constructor
      · simp [setPingWaiting, checkAndDropActivityFlag, none, pingPeriod]
      · simp [setPingWaiting, checkAndDropActivityFlag, none]
      · simp [setPingWaiting, checkAndDropActivityFlag, none]
  | first :: second :: later =>
      have same : w.next (.check now) = w := by
        have started : w.startPingWaiting = some second := waiting
        have dropped : w.activityFlag = false := flag
        simp only [next, action, decision]
        split
        next unreached =>
            split at unreached
            next => cases unreached
            next => cases unreached
        next =>
            simp only [checkAndDropActivityFlag, setPingWaiting, started, Option.isSome_some, if_true]
            rw [← dropped, ← started]
        next => rfl
      rw [same]
      exact ⟨pingPeriod, flag, waiting⟩

theorem Watched.activity (watched : Watched period checks w) : Watched period [] (w.next .activity) :=
  ⟨watched.pingPeriod, rfl, rfl⟩

/-- The watcher after a run remembers the checks since the latest activity. -/
theorem watched_after (period : Int) (es : List WatchEvent) :
    Watched period (checksSinceActivity es) (after period es) := by
  induction es using List.reverseRecOn with
  | nil => exact ⟨rfl, rfl, rfl⟩
  | append_singleton es e ih =>
      rw [checksSinceActivity, after, List.foldl_append, List.foldl_append]
      cases e with
      | activity => exact ih.activity
      | check now => exact ih.check now

/-- A run whose checks are all separated by activity has no check since the latest activity. -/
theorem checksSinceActivity_separated {es : List WatchEvent} {now : Int} {later : List WatchEvent}
    (separated : ∀ before a b rest, es ++ .check now :: later ≠ before ++ .check a :: .check b :: rest) :
    checksSinceActivity es = [] := by
  induction es using List.reverseRecOn with
  | nil => rfl
  | append_singleton es e _ =>
      cases e with
      | activity => simp [checksSinceActivity]
      | check earlier =>
          refine absurd ?_ (separated es earlier now later)
          simp

/-- The monitoring law. A watcher has seen some events since it was made, and the next one is a check. Let `k` be
    its number among the checks since the latest activity. The first check sends no ping, the others send one
    unless they deactivate the connection, and a check deactivates exactly if it is at least the third one and
    later than the second one by more than the ping period. So a connection with activity between any two checks
    is neither pinged nor deactivated. -/
theorem watcher_law (period : Int) (es : List WatchEvent) (now : Int) :
    (checksSinceActivity es = [] → (after period es).watchAction now = .none) ∧
    (2 ≤ (checksSinceActivity es ++ [now]).length → (after period es).watchAction now ≠ .deactivate →
      (after period es).watchAction now = .sendPing) ∧
    ((after period es).watchAction now = .deactivate ↔
      3 ≤ (checksSinceActivity es ++ [now]).length ∧
        ∃ second, (checksSinceActivity es)[1]? = some second ∧ now > second + period) ∧
    (∀ later, (∀ before a b rest, es ++ .check now :: later ≠ before ++ .check a :: .check b :: rest) →
      (after period es).watchAction now = .none) ∧
    (∀ c : Connection, c.watcher = after period es →
      c.processWatchEvent now =
        match (after period es).watchAction now with
        | .none => { c with watcher := after period (es ++ [.check now]) }
        | .sendPing => { c.send createTransferMsgPing with watcher := after period (es ++ [.check now]) }
        | .deactivate => c.deactivate) := by
  have watched := watched_after period es
  have action := watched.watchAction_eq now
  refine ⟨?_, ?_, ?_, ?_, ?_⟩
  · intro first
    rw [action, first]
    rfl
  · rw [action]
    match checksSinceActivity es with
    | [] => simp
    | [first] => simp [decision]
    | first :: second :: later => simp [decision]
  · rw [action]
    match checksSinceActivity es with
    | [] => simp [decision]
    | [first] => simp [decision]
    | first :: second :: later => simp [decision]
  · intro later separated
    rw [action, checksSinceActivity_separated separated]
    rfl
  · intro c same
    have next : after period (es ++ [.check now]) = c.watcher.next (.check now) := by
      rw [same, after, List.foldl_append]
      rfl
    rw [Connection.processWatchEvent_eq, next, same]

end ConnectionWatcher

/-! ### Received messages -/

namespace Connection

variable {c c' : Connection}

/-- Activity is noted and no ping is waited for. -/
def isFresh (c : Connection) : Bool := c.watcher.activityFlag && c.watcher.startPingWaiting.isNone

/-- A received buffer that reaches the end of the dispatch: it has a type byte, and if that says response, the
    buffer is a valid response frame. -/
def countsAsActivity (message : Buffer) : Bool :=
  match getTransferMsgType message with
  | .error _ => false
  | .ok .res =>
      match isResponseBufferValid message with
      | .ok valid => valid
      | .error _ => false
  | .ok _ => true

theorem completeRequest_watcher (c : Connection) (number : UInt64) (result : RequestResult) (resMsg : Buffer) :
    (c.completeRequest number result resMsg).watcher = c.watcher := by
  unfold completeRequest
  split
  next => rfl
  next => rfl

/-- The dispatch of a message notes activity, or throws and leaves the connection as it was. -/
theorem dispatch_watcher (c : Connection) (message : Buffer) :
    (c.dispatchReceiveEvent message).watcher =
      if countsAsActivity message then c.watcher.setActivityFlag else c.watcher := by
  unfold dispatchReceiveEvent dispatch countsAsActivity
  cases getTransferMsgType message with
  | error e => rfl
  | ok type =>
      cases type with
      | req =>
          simp only [bind, Except.bind, pure, Except.pure, if_true, handleReceivedRequest]
          split
          next => rfl
          next => rfl
      | res =>
          cases getMsgNumberRes_guarded message with
          | inl returns =>
              obtain ⟨valid, number, read⟩ := returns
              simp only [bind, Except.bind, pure, Except.pure, handleReceivedResponse, read, valid, if_true]
              rw [completeRequest_watcher]
          | inr throws =>
              obtain ⟨invalid, thrown⟩ := throws
              simp only [bind, Except.bind, handleReceivedResponse, thrown, invalid]
              rfl
      | ping => rfl
      | pong => rfl
      | unnamed byte large => rfl

theorem processRequestSent_watcher (c : Connection) (number : UInt64) :
    (c.processRequestSent number).watcher = c.watcher := by
  unfold processRequestSent
  split
  next => rfl
  next =>
      split
      next => rfl
      next => rfl

theorem sendCallback_watcher (c : Connection) (number : UInt64) (result : PipeOpRes) :
    (c.sendCallback number result).watcher = c.watcher := by
  cases result with
  | success => exact processRequestSent_watcher c number
  | canceled => exact completeRequest_watcher c number _ _
  | failed => exact completeRequest_watcher c number _ _
  | timeout => exact completeRequest_watcher c number _ _

theorem requestAsync_watcher (c : Connection) (message : Bytes) (running : Bool) :
    (c.requestAsync message running).watcher = c.watcher := by
  unfold requestAsync
  split
  next => rfl
  next =>
      split
      next => rfl
      next => rfl

theorem watch_watcher (c : Connection) (now : Int) : (c.watch now).watcher = c.watcher.next (.check now) := by
  have checked : (c.processWatchEvent now).watcher = c.watcher.next (.check now) := by
    rw [processWatchEvent_eq]
    cases action : c.watcher.watchAction now with
    | none => rfl
    | sendPing => rfl
    | deactivate => simp [deactivate, ConnectionWatcher.next, action]
  unfold watch
  simp only
  split
  next => exact checked
  next => exact checked

/-- The watcher after a step. -/
def watcherAfter (w : ConnectionWatcher) : Event → ConnectionWatcher
  | .received message => if countsAsActivity message then w.setActivityFlag else w
  | .watch now => w.next (.check now)
  | _ => w

/-- The watcher changes by a received message and by a check only. -/
theorem step_watcher {e : Event} (stepped : machine.step c e = some c') :
    c'.watcher = watcherAfter c.watcher e := by
  have taken : c.step e = some c' := stepped
  cases e with
  | start =>
      obtain ⟨-, done⟩ := Option.ite_none_right_eq_some.mp taken
      cases done
      simp only [start]
      split
      next => rfl
      next => rfl
  | deactivate =>
      obtain ⟨-, done⟩ := Option.ite_none_right_eq_some.mp taken
      cases done
      rfl
  | requestAsync message running =>
      obtain ⟨-, done⟩ := Option.ite_none_right_eq_some.mp taken
      cases done
      exact requestAsync_watcher c message running
  | requestSend =>
      obtain ⟨⟨number, message⟩, -, rfl⟩ := Option.map_eq_some_iff.mp taken
      rfl
  | sendDone number result =>
      obtain ⟨-, done⟩ := Option.ite_none_right_eq_some.mp taken
      cases done
      exact sendCallback_watcher _ number result
  | received message =>
      obtain ⟨-, done⟩ := Option.ite_none_right_eq_some.mp taken
      cases done
      exact dispatch_watcher _ message
  | receiveEnd result =>
      obtain ⟨-, done⟩ := Option.ite_none_right_eq_some.mp taken
      cases done
      rfl
  | timerExpires timerId =>
      obtain ⟨timer, -, rfl⟩ := Option.map_eq_some_iff.mp taken
      rfl
  | timerHandler timerId =>
      simp only [step] at taken
      split at taken
      next => cases taken
      next =>
          cases taken
          rfl
      next =>
          cases taken
          exact completeRequest_watcher _ _ _ _
  | watch now =>
      obtain ⟨-, done⟩ := Option.ite_none_right_eq_some.mp taken
      cases done
      exact watch_watcher c now
  | respond message =>
      cases taken
      rfl

theorem isFresh_iff : c.isFresh = true ↔ c.watcher.activityFlag = true ∧ c.watcher.startPingWaiting = none := by
  simp [isFresh]

/-- When a received message is counted: the receive step then leaves the flag set and ends the waiting. -/
def activityNoted (c : Connection) : Event → Bool
  | .received message => countsAsActivity message || c.isFresh
  | _ => true

theorem received_isFresh_iff {message : Buffer} (stepped : machine.step c (.received message) = some c') :
    c'.isFresh = true ↔ c.activityNoted (.received message) = true := by
  have watcher := step_watcher stepped
  cases counts : countsAsActivity message with
  | true =>
      simp [isFresh, watcher, watcherAfter, activityNoted, counts, ConnectionWatcher.setActivityFlag]
  | false => simp [isFresh, watcher, watcherAfter, activityNoted, counts]

/-- A waiting that a check does not find was started by it. -/
theorem next_waiting {w : ConnectionWatcher} {now start : Int}
    (waiting : (w.next (.check now)).startPingWaiting = some start) :
    w.startPingWaiting = some start ∨ now = start := by
  simp only [ConnectionWatcher.next] at waiting
  split at waiting
  next => exact .inl waiting
  next =>
      cases before : w.startPingWaiting with
      | none =>
          rw [ConnectionWatcher.setPingWaiting, ConnectionWatcher.checkAndDropActivityFlag, before] at waiting
          exact .inr (Option.some.inj waiting)
      | some earlier =>
          rw [ConnectionWatcher.setPingWaiting, ConnectionWatcher.checkAndDropActivityFlag, before] at waiting
          exact .inl waiting
  next => exact .inl waiting

/-- From a state without a waiting, a later waiting was started by a check on the way. -/
theorem waiting_started {s s' : Connection} {es : List Event} {start : Int}
    (ran : machine.run s es = some s') (none : s.watcher.startPingWaiting = none)
    (waiting : s'.watcher.startPingWaiting = some start) :
    ∃ before after, es = before ++ .watch start :: after := by
  refine Machine.run_induction
    (P := fun es s' => s'.watcher.startPingWaiting = some start →
      ∃ before after, es = before ++ .watch start :: after)
    ?_ ?_ ran waiting
  · intro already
    exact absurd (none.symm.trans already) nofun
  · intro es a e b _ ih stepped waiting
    have extend : a.watcher.startPingWaiting = some start →
        ∃ before after, es ++ [e] = before ++ .watch start :: after := by
      intro before
      obtain ⟨earlier, later, split⟩ := ih before
      exact ⟨earlier, later ++ [e], by rw [split]; simp⟩
    have watcher := step_watcher stepped
    rw [watcher] at waiting
    cases e with
    | received message =>
        simp only [watcherAfter] at waiting
        split at waiting
        next => cases waiting
        next => exact extend waiting
    | watch now =>
        cases next_waiting waiting with
        | inl before => exact extend before
        | inr now => exact ⟨es, [], by rw [now]⟩
    | _ => exact extend waiting

/-- A received message is counted as activity exactly under the condition, in whatever state the connection is;
    and in a run whose received messages all meet it, a waiting that is in force was started by a check after
    the latest message, so that the connection is not deactivated because of an earlier one. -/
theorem received_counts_as_activity (hasService : Bool) (pingTimeout : Int) :
    (∀ (c c' : Connection) (message : Buffer), machine.step c (.received message) = some c' →
      (c'.watcher.activityFlag = true ∧ c'.watcher.startPingWaiting = none ↔
        c.activityNoted (.received message) = true)) ∧
    (∀ (es later : List Event) (message : Buffer) (c : Connection) (start : Int),
      (machine.restrict activityNoted).run (initial hasService pingTimeout)
        (es ++ .received message :: later) = some c →
      c.watcher.startPingWaiting = some start →
      ∃ before after, later = before ++ .watch start :: after) := by
  constructor
  · intro c c' message stepped
    rw [← isFresh_iff]
    exact received_isFresh_iff stepped
  · intro es later message c start ran waiting
    obtain ⟨a, -, rest⟩ := Machine.run_append_eq_some.mp ran
    obtain ⟨b, stepped, after⟩ := Machine.run_cons_eq_some.mp rest
    obtain ⟨noted, stepped⟩ := Machine.restrict_step.mp stepped
    have fresh := isFresh_iff.mp ((received_isFresh_iff stepped).mpr noted)
    exact waiting_started (Machine.run_restrict after) fresh.2 waiting

/-- A connection that waits for an answer to its ping receives a response too short for a frame. The message is
    not counted, and the next check deactivates the connection because of the waiting before the message. -/
theorem short_response_not_counted :
    (¬ ∀ (es : List Event) (c c' : Connection) (message : Buffer),
      machine.run (initial false 10) es = some c → machine.step c (.received message) = some c' →
      c'.watcher.activityFlag = true ∧ c'.watcher.startPingWaiting = none) ∧
    ∃ c, machine.run (initial false 10) [.start, .watch 0, .watch 1, .received (some [1]), .watch 12] = some c ∧
      c.state = .deactivated := by
  constructor
  · intro counted
    have fresh := counted [.start, .watch 0, .watch 1] _ _ (some [1]) rfl rfl
    cases fresh.1
  · exact ⟨_, rfl, rfl⟩

end Connection

end CommonRpc
