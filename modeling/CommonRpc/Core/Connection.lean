/-
Module: CommonRpc.Core.Connection
Purpose: `connection::impl` and its `connection_watcher`: the map of requests in flight, their timers, the
  receive loop and the monitoring of the peer. Each critical section on the request map is one step, with the
  promises it sets; `request_async` is two steps, since only `m_mtx` is held between filing the request and
  sending it. The transport, the service and the clock belong to the environment: frames handed to the
  transport are listed in `outbox`, requests handed to the service in `toService`, and what comes back arrives
  as an event. A promise is named by the message number of its request. A timer handler forgets its timer and
  calls back in one step: a timer that expired is not stopped by `cancel` before the one or after it.
Trusted boundary: send futures settle with a value; `multiple_timer::start` and `send_async` do not throw
-/
import CommonRpc.Core.MultipleTimer
import CommonRpc.Core.TransferMessage
import CommonRpc.Lib.Transition

namespace CommonRpc

/-- `connection_watcher`; times and the period are nanoseconds, the ticks of the steady clock. -/
structure ConnectionWatcher where
  pingPeriod : Int
  activityFlag : Bool := true
  startPingWaiting : Option Int := none
deriving DecidableEq, Repr

namespace ConnectionWatcher

def checkAndDropActivityFlag (w : ConnectionWatcher) : ConnectionWatcher × Bool :=
  ({ w with activityFlag := false }, w.activityFlag)

def setActivityFlag (w : ConnectionWatcher) : ConnectionWatcher :=
  { w with activityFlag := true, startPingWaiting := none }

def setPingWaiting (w : ConnectionWatcher) (now : Int) : ConnectionWatcher :=
  if w.startPingWaiting.isSome then w else { w with startPingWaiting := some now }

def isConnectionNotResponding (w : ConnectionWatcher) (now : Int) : Bool :=
  match w.startPingWaiting with
  | none => false
  | some start => decide (start + w.pingPeriod < now)

end ConnectionWatcher

/-- `request_data`, with the number it is filed under. -/
structure RequestData where
  number : UInt64
  timerId : Nat
  isReqSent : Bool := false
  failReqResult : Option RequestResult := none
deriving DecidableEq, Repr

/-- A request promise that was set. -/
structure RequestOutcome where
  number : UInt64
  result : RequestResult
  buffer : Buffer
deriving DecidableEq, Repr

inductive ConnectionState where
  | neverStarted
  | started
  | deactivated
deriving DecidableEq, Repr

/-- The periodic watcher timer; after `stop_async` a handler that was queued may still call back. -/
inductive WatchTimer where
  | idle
  | running
  | stopping
deriving DecidableEq, Repr

/-- `connection::impl`. -/
structure Connection where
  state : ConnectionState := .neverStarted
  /-- `m_service` is not null. -/
  hasService : Bool
  watcher : ConnectionWatcher
  /-- `m_watcher_timer`. -/
  watching : WatchTimer := .idle
  requestMap : List RequestData := []
  /-- `m_multiple_timer`; a callback captures the number of its request. -/
  timer : MultipleTimer UInt64 := {}
  /-- The `request_async` call that holds `m_mtx`: its number and the message it is about to send. -/
  calling : Option (UInt64 × Bytes) := none
  /-- The requests that were sent and whose send callback has not run. -/
  sending : List UInt64 := []
  /-- A receive is outstanding. -/
  receiving : Bool := false
  /-- `m_transport.stop()` was called. -/
  stopped : Bool := false
  outbox : List Bytes := []
  toService : List Buffer := []
  received : List Buffer := []
  results : List RequestOutcome := []
  /-- The numbers of the requests that were filed. -/
  issued : List UInt64 := []
  /-- Calls that were answered with a ready `failed` future. -/
  refused : Nat := 0
deriving DecidableEq, Repr

namespace Connection

/-- `m_request_map.find`. -/
def find (c : Connection) (number : UInt64) : Option RequestData :=
  c.requestMap.find? fun data => data.number = number

/-- `map->erase(it)`. -/
def erase (c : Connection) (number : UInt64) : List RequestData :=
  c.requestMap.filter fun data => data.number ≠ number

/-- `m_transport.send_async(message)`. -/
def send (c : Connection) (message : Bytes) : Connection := { c with outbox := c.outbox ++ [message] }

def start (c : Connection) : Connection :=
  if c.state = .neverStarted then { c with state := .started, watching := .running, receiving := true } else c

def deactivate (c : Connection) : Connection := { c with state := .deactivated, stopped := true }

def completeRequest (c : Connection) (number : UInt64) (result : RequestResult) (resMsg : Buffer) :
    Connection :=
  match c.find number with
  | none => c
  | some data =>
      { c with
        timer := c.timer.cancel data.timerId
        requestMap := c.erase number
        results := c.results ++ [⟨number, result, resMsg⟩] }

/-- `add_request_to_map`; `emplace` does nothing if the number is there. -/
def addRequestToMap (c : Connection) (number : UInt64) : Connection :=
  { c with
    timer := c.timer.start number
    requestMap :=
      if (c.find number).isSome then c.requestMap
      else c.requestMap ++ [{ number := number, timerId := c.timer.nextId }]
    issued := c.issued ++ [number] }

/-- `request_async` until the request is filed; `running` is what `m_transport.is_running()` answers. A
    message without a number makes the call throw. -/
def requestAsync (c : Connection) (message : Bytes) (running : Bool) : Connection :=
  if c.state ≠ .started ∨ ¬ running then { c with refused := c.refused + 1 }
  else
    match getMsgNumberReq (some message) with
    | .error _ => c
    | .ok number => { c.addRequestToMap number with calling := some (number, message) }

/-- The rest of `request_async`: the message is sent and its callback attached. -/
def requestSend (c : Connection) (number : UInt64) (message : Bytes) : Connection :=
  { c.send message with calling := none, sending := c.sending ++ [number] }

def processRequestSent (c : Connection) (number : UInt64) : Connection :=
  match c.find number with
  | none => c
  | some data =>
      match data.failReqResult with
      | some result =>
          { c with
            requestMap := c.erase number
            results := c.results ++ [⟨number, result, none⟩] }
      | none =>
          { c with requestMap := c.requestMap.map fun other =>
              if other.number = number then { other with isReqSent := true } else other }

/-- The send callback of `request_async`. -/
def sendCallback (c : Connection) (number : UInt64) : PipeOpRes → Connection
  | .success => c.processRequestSent number
  | .canceled => c.completeRequest number .sendCanceled none
  | .timeout => c.completeRequest number .sendTimeout none
  | .failed => c.completeRequest number .sendFailed none

/-- `complete_receive_routine`. -/
def completeReceiveRoutine (c : Connection) (r : PipeOpRes) : Connection :=
  let reqResult : RequestResult := if r = .canceled then .canceled else .failed
  { c with
    watching := if c.watching = .running then .stopping else c.watching
    timer := c.requestMap.foldl (fun timer data => timer.cancel data.timerId) c.timer
    requestMap := (c.requestMap.filter fun data => !data.isReqSent).map fun data =>
      { data with failReqResult := some reqResult }
    results := c.results ++
      (c.requestMap.filter RequestData.isReqSent).map fun data => ⟨data.number, reqResult, none⟩ }

def handleReceivedRequest (c : Connection) (message : Buffer) : Connection :=
  if c.hasService then { c with toService := c.toService ++ [message] } else c

def handleReceivedResponse (c : Connection) (message : Buffer) : Except MsgError Connection := do
  let number ← getMsgNumberRes message
  return c.completeRequest number .ok message

/-- The body of the `try` block of `dispatch_receive_event`. -/
def dispatch (c : Connection) (message : Buffer) : Except MsgError Connection := do
  let c ← match ← getTransferMsgType message with
    | .req => pure (c.handleReceivedRequest message)
    | .res => c.handleReceivedResponse message
    | .ping => pure (c.send createTransferMsgPong)
    | .pong => pure c
    | .unnamed _ _ => pure c
  return { c with watcher := c.watcher.setActivityFlag }

/-- `dispatch_receive_event`: an exception is swallowed. -/
def dispatchReceiveEvent (c : Connection) (message : Buffer) : Connection :=
  match c.dispatch message with
  | .ok c => c
  | .error _ => c

def processWatchEvent (c : Connection) (now : Int) : Connection :=
  if c.watcher.isConnectionNotResponding now then c.deactivate
  else
    let (watcher, active) := c.watcher.checkAndDropActivityFlag
    if active then { c with watcher := watcher }
    else { c.send createTransferMsgPing with watcher := watcher.setPingWaiting now }

/-- One call of the watcher timer's callback; after a stop it is the last one. -/
def watch (c : Connection) (now : Int) : Connection :=
  let c := c.processWatchEvent now
  if c.watching = .stopping then { c with watching := .idle } else c

/-- What may happen next to a connection. -/
inductive Event where
  | start
  | deactivate
  | requestAsync (message : Bytes) (running : Bool)
  /-- The call of `request_async` that filed its request goes on. -/
  | requestSend
  /-- The send future of a request settles. -/
  | sendDone (number : UInt64) (result : PipeOpRes)
  | received (message : Buffer)
  /-- The receive future settles with a failure, which ends the receive loop. -/
  | receiveEnd (result : PipeOpRes)
  | timerExpires (timerId : Nat)
  | timerHandler (timerId : Nat)
  | watch (now : Int)
  /-- The service answers a request. -/
  | respond (message : Bytes)
deriving DecidableEq, Repr

/-- The steps that come neither from the channel, from the service nor from the pipe. -/
def Event.isEnvironment : Event → Bool
  | .requestAsync _ _ | .received _ | .respond _ => false
  | _ => true

/-- Whether `m_mtx` can be taken. -/
def isUnlocked (c : Connection) : Bool := c.calling.isNone

def step (c : Connection) : Event → Option Connection
  | .start => if c.isUnlocked then some c.start else none
  | .deactivate => if c.isUnlocked then some c.deactivate else none
  | .requestAsync message running => if c.isUnlocked then some (c.requestAsync message running) else none
  | .requestSend => c.calling.map fun (number, message) => c.requestSend number message
  | .sendDone number result =>
      if number ∈ c.sending then
        some ({ c with sending := c.sending.erase number }.sendCallback number result)
      else none
  | .received message =>
      if c.receiving then
        some ({ c with received := c.received ++ [message] }.dispatchReceiveEvent message)
      else none
  | .receiveEnd result =>
      if c.receiving ∧ result.isFail ∧ result ≠ .timeout then
        some ({ c with receiving := false }.completeReceiveRoutine result)
      else none
  | .timerExpires timerId => (c.timer.expire timerId).map fun timer => { c with timer := timer }
  | .timerHandler timerId =>
      match c.timer.handle timerId with
      | none => none
      | some (timer, none) => some { c with timer := timer }
      | some (timer, some number) => some ({ c with timer := timer }.completeRequest number .timeout none)
  | .watch now =>
      -- only `deactivate` takes the mutex
      if c.watching ≠ .idle ∧ (c.watcher.isConnectionNotResponding now → c.isUnlocked) then some (c.watch now)
      else none
  | .respond message => some (c.send message)

def machine : Lib.Machine Connection Event where
  step := step

/-- A connection as its constructor leaves it. -/
def initial (hasService : Bool) (pingTimeout : Int) : Connection where
  hasService := hasService
  watcher := { pingPeriod := pingTimeout }

/-- The send callback of a request is still to come. -/
def SendOutstanding (c : Connection) (number : UInt64) : Prop :=
  number ∈ c.sending ∨ ∃ message, c.calling = some (number, message)

/-- A request is filed under a number that no earlier one had. -/
def distinctNumbers (c : Connection) : Event → Bool
  | .requestAsync message _ =>
      match getMsgNumberReq (some message) with
      | .error _ => true
      | .ok number => decide (number ∉ c.issued)
  | _ => true

end Connection

end CommonRpc
