/-
Module: CommonRpc.Core.WinPipeEndpoint
Purpose: `win_pipe_endpoint::impl` over `win_pipe_iocp_owner`: overlapped I/O on a message pipe. Each side has a
  list of operations, kept from its back: the head is the back, and `emplace_front` appends. The back operation
  is handed to the one iocp thread of its side, which runs its tasks in the order in which they were posted; a
  task that has run up to some call is kept at the head of the list as what is left of it. Completion packets go
  to the worker loop in the same way. Results are set by compare-and-exchange, so that an operation may be given a
  result by a timer, an invalidation, its iocp thread or the worker at any moment between two other steps. Every
  critical section is one step; `ReadFile`, `WriteFile` and `CancelIo` are called under the lock of the handle.
  What the owner's threads do for other endpoints is on other handles and left out.
Trusted boundary: a `ReadFile` or `WriteFile` that fails, other than with `ERROR_IO_PENDING`, posts no completion
  packet, and fails on a handle that was closed; `CancelIo` reaches the I/O of the calling thread on the handle
  that has not completed, and so does closing the handle; `ERROR_OPERATION_ABORTED` is reported for I/O that one
  of the two reached, which may also complete in any other way. Operation ids do not wrap
-/
import CommonRpc.Core.MultipleTimer
import CommonRpc.Core.TcpPipeEndpoint
import CommonRpc.Core.Types
import CommonRpc.Lib.Transition

namespace CommonRpc

/-! ### Operations -/

inductive WinPipeOperationRes where
  | unknown
  | success
  | canceled
  | timeout
  | failed
deriving DecidableEq, Repr

/-- `win_pipe_write_operation` and `win_pipe_read_operation`, without what is written and read. -/
structure WinPipeOperation where
  result : WinPipeOperationRes := .unknown
  /-- `m_read_bytes` of a read operation. -/
  readBytes : Nat := 0
  /-- The sizes of `m_buffers` of a read operation. -/
  buffers : List Nat := [8192]
deriving DecidableEq, Repr

namespace WinPipeOperation

def setSuccess (op : WinPipeOperation) : WinPipeOperation := { op with result := .success }

/-- `compare_exchange_strong` of the result. -/
def exchange (expected desired : WinPipeOperationRes) (op : WinPipeOperation) : WinPipeOperation :=
  if op.result = expected then { op with result := desired } else op

def setCanceledIfPossible : WinPipeOperation → WinPipeOperation := exchange .unknown .canceled

def setTimeoutIfPossible : WinPipeOperation → WinPipeOperation := exchange .unknown .timeout

/-- A timeout gives way to a failure. -/
def setFailedIfPossible (op : WinPipeOperation) : WinPipeOperation :=
  if op.result = .unknown then exchange .unknown .failed op else exchange .timeout .failed op

def addReadBytes (bytes : Nat) (op : WinPipeOperation) : WinPipeOperation :=
  { op with readBytes := op.readBytes + bytes }

/-- `none` for `false`. -/
def addBufferChunk (op : WinPipeOperation) : Option WinPipeOperation :=
  let totalSize := op.buffers.foldl (· + ·) 0
  if MaxTransferMessageSize ≤ totalSize then none
  else
    let prevSize := op.buffers.getLast?.getD 0
    some { op with buffers := op.buffers ++ [min (prevSize * 2) (MaxTransferMessageSize - totalSize)] }

end WinPipeOperation

/-! ### The two threads of an I/O operation -/

/-- What is left of a task of an iocp thread. -/
inductive IocpTask where
  /-- `read_async` or `write_async` of the owner. -/
  | start (id : Nat)
  /-- `op->start(ec)`: the next call of `ReadFile` or `WriteFile`; also the task of `read_rest_async`. -/
  | issue (id : Nat)
  /-- `op->set_failed_if_possible()` and what follows. -/
  | fail (id : Nat)
  | resolve (id : Nat)
  /-- `cancel_read` or `cancel_write` of the owner. -/
  | cancel (id : Nat)
deriving DecidableEq, Repr

/-- I/O that has not completed. -/
structure PendingIo where
  id : Nat
  /-- `CancelIo` or the closing of the handle has reached it. -/
  aborted : Bool := false
deriving DecidableEq, Repr

/-- How `ReadFile` or `WriteFile` returns. -/
inductive IoCall where
  /-- At once or with `ERROR_IO_PENDING`: a completion packet will come. -/
  | pending
  /-- With `ERROR_MORE_DATA`. -/
  | moreData
  | error
deriving DecidableEq, Repr

/-- What a completion packet reports. -/
inductive IoStatus where
  | success
  | moreData
  | operationAborted
  | other
deriving DecidableEq, Repr

/-- What is left of the work of the worker loop on a packet. -/
inductive WorkerJob where
  | completed (status : IoStatus) (bytes : Nat)
  | succeed
  | fail
  | resolve
deriving DecidableEq, Repr

structure WorkerItem where
  tag : PipeSide
  id : Nat
  job : WorkerJob
deriving DecidableEq, Repr

/-! ### The state -/

/-- `write_op_data` or `read_op_data`. -/
structure WinPipeOpData where
  id : Nat
  timerId : Option Nat
deriving DecidableEq, Repr

/-- The callback on the future of an operation, which has got the result. -/
structure WinPipeContinuation where
  id : Nat
  result : WinPipeOperationRes
  /-- It has looked whether the result is `failed`. -/
  checked : Bool := false
deriving DecidableEq, Repr

/-- The members that `m_write_op_mtx` or `m_read_op_mtx` guards, what the iocp thread of the side has to do, and
    what the side has done so far. -/
structure WinPipeSide where
  /-- The operations by their ids. -/
  ops : List WinPipeOperation := []
  /-- What the callback on the future of each operation captured. -/
  timerIds : List (Option Nat) := []
  /-- From the back of the list. -/
  queue : List WinPipeOpData := []
  tasks : List IocpTask := []
  inFlight : List PendingIo := []
  /-- The `operation_to_resolve` of timer callbacks. -/
  resolving : List Nat := []
  continuations : List WinPipeContinuation := []
  /-- The promises that were set. -/
  resolved : List (Nat × WinPipeOperationRes) := []
  /-- The operations that were handed to the iocp owner, each with the back of the list at that moment. -/
  handed : List (Nat × Option Nat) := []
  /-- For each `CancelIo` the operation that it was issued for and those whose I/O it reached. -/
  cancelHits : List (Nat × Nat) := []
  /-- Calls that were answered with a ready `failed` future. -/
  refused : Nat := 0
deriving DecidableEq, Repr

namespace WinPipeSide

def updateOp (side : WinPipeSide) (id : Nat) (update : WinPipeOperation → WinPipeOperation) : WinPipeSide :=
  { side with ops := side.ops.modify id update }

/-- `add_buffer_chunk` on an operation; `none` for `false`. -/
def addBufferChunk (side : WinPipeSide) (id : Nat) : Option WinPipeSide :=
  (side.ops[id]?.bind WinPipeOperation.addBufferChunk).map fun op => { side with ops := side.ops.set id op }

def backId (side : WinPipeSide) : Option Nat := side.queue.head?.map WinPipeOpData.id

/-- The operation is handed to the iocp owner, which posts a task. -/
def hand (side : WinPipeSide) (task : Nat → IocpTask) (id : Nat) : WinPipeSide :=
  { side with tasks := side.tasks ++ [task id], handed := side.handed ++ [(id, side.backId)] }

/-- `op->resolve()` -/
def resolve (side : WinPipeSide) (id : Nat) : WinPipeSide :=
  match side.ops[id]? with
  | none => side
  | some op =>
      { side with
        resolved := side.resolved ++ [(id, op.result)]
        continuations := side.continuations ++ [{ id, result := op.result }] }

/-- `write_async` and `read_async` on an open pipe. -/
def startAsync (side : WinPipeSide) (timerId : Option Nat) : WinPipeSide :=
  let id := side.ops.length
  let side := { side with
    ops := side.ops ++ [{}]
    timerIds := side.timerIds ++ [timerId]
    queue := side.queue ++ [{ id, timerId }] }
  if side.queue.length = 1 then side.hand .start id else side

/-- `complete_write_op` and `complete_read_op`, with whether the timer is cancelled. -/
def completeOp (side : WinPipeSide) (id : Nat) : WinPipeSide × Bool :=
  match side.queue with
  | [] => (side, false)
  | back :: rest =>
      if back.id = id then
        let side := { side with queue := rest }
        match rest with
        | [] => (side, true)
        | next :: _ => (side.hand .start next.id, true)
      else (side, false)

/-- `cancel_write_op_by_timeout` and `cancel_read_op_by_timeout`, up to the end of the critical section. -/
def cancelOpByTimeout (side : WinPipeSide) (id : Nat) : WinPipeSide :=
  if (side.queue.map WinPipeOpData.id).contains id then
    let side := side.updateOp id .setTimeoutIfPossible
    if side.backId = some id then side.hand .cancel id
    else
      { side with
        queue := side.queue.eraseP fun data => data.id = id
        resolving := side.resolving ++ [id] }
  else side

/-- The part of `invalidate_impl` on one list of operations, and what closing the handle does to its I/O. -/
def invalidate (side : WinPipeSide) (setResult : WinPipeOperation → WinPipeOperation) : WinPipeSide :=
  { side.queue.foldl (fun side data => side.updateOp data.id setResult) side with
    inFlight := side.inFlight.map fun io => { io with aborted := true } }

/-- `CancelIo` on behalf of an operation. -/
def cancelIo (side : WinPipeSide) (id : Nat) : WinPipeSide :=
  { side with
    inFlight := side.inFlight.map fun io => { io with aborted := true }
    cancelHits := side.cancelHits ++ side.inFlight.map fun io => (id, io.id) }

/-- `op->cancel()`: a read operation that has got bytes is not cancelled. -/
def cancel (side : WinPipeSide) (tag : PipeSide) (isOpen : Bool) (id : Nat) : WinPipeSide :=
  match tag, side.ops[id]? with
  | .write, _ => if isOpen then side.cancelIo id else side
  | .read, some op => if op.readBytes = 0 ∧ isOpen then side.cancelIo id else side
  | .read, none => side

/-- The iocp thread goes on up to the next call of `ReadFile` or `WriteFile` or the next change of a result. -/
def runTask (side : WinPipeSide) (tag : PipeSide) (isOpen : Bool) : Option WinPipeSide :=
  match side.tasks with
  | [] | .issue _ :: _ => none
  | .start id :: rest =>
      match side.ops[id]? with
      | none => none
      | some op =>
          if op.result = .unknown then some { side with tasks := .issue id :: rest }
          else some { side with tasks := .resolve id :: rest }
  | .fail id :: rest => some { side.updateOp id .setFailedIfPossible with tasks := .resolve id :: rest }
  | .resolve id :: rest => some ({ side with tasks := rest }.resolve id)
  | .cancel id :: rest => some ({ side with tasks := rest }.cancel tag isOpen id)

/-- The iocp thread calls `ReadFile` or `WriteFile`. -/
def ioCall (side : WinPipeSide) (tag : PipeSide) (isOpen : Bool) (call : IoCall) : Option WinPipeSide :=
  match side.tasks with
  | .issue id :: rest =>
      match call with
      | .pending =>
          if isOpen then some { side with tasks := rest, inFlight := side.inFlight ++ [{ id }] } else none
      | .moreData =>
          match tag, isOpen with
          | .read, true =>
              let side := side.updateOp id fun op => op.addReadBytes (op.buffers.getLast?.getD 0)
              match side.addBufferChunk id with
              | some side => some side
              | none => some { side with tasks := .fail id :: rest }
          | _, _ => none
      | .error => some { side with tasks := .fail id :: rest }
  | _ => none

/-- The worker loop takes the completion packet of a write operation. -/
def writeCompleted (status : IoStatus) : WorkerJob :=
  match status with
  | .success => .succeed
  | .operationAborted => .resolve
  | .moreData | .other => .fail

/-- The worker loop takes the completion packet of a read operation; `none` if it has posted the rest of the read
    to the iocp thread. -/
def readCompleted (side : WinPipeSide) (id : Nat) (status : IoStatus) (bytes : Nat) :
    WinPipeSide × Option WorkerJob :=
  let side := side.updateOp id (.addReadBytes bytes)
  match status with
  | .success => (side, some .succeed)
  | .moreData =>
      match side.addBufferChunk id with
      | none => (side, some .fail)
      | some side => ({ side with tasks := side.tasks ++ [.issue id] }, none)
  | .operationAborted => (side, some .resolve)
  | .other => (side, some .fail)

/-- The worker loop goes on with an item of this side; what is left of the item. -/
def runWorker (side : WinPipeSide) (tag : PipeSide) (id : Nat) (job : WorkerJob) :
    WinPipeSide × Option WorkerJob :=
  match job with
  | .completed status bytes =>
      match tag with
      | .write => (side, some (writeCompleted status))
      | .read => side.readCompleted id status bytes
  | .succeed => (side.updateOp id .setSuccess, some .resolve)
  | .fail => (side.updateOp id .setFailedIfPossible, some .resolve)
  | .resolve => (side.resolve id, none)

end WinPipeSide

/-- `win_pipe_endpoint::impl` with the iocp owner. -/
structure WinPipeEndpoint where
  writes : WinPipeSide := {}
  reads : WinPipeSide := {}
  isOpen : Bool := true
  timer : MultipleTimer (PipeSide × Nat) := {}
  disconnectCallbacks : List Nat := []
  disconnectsRun : List Nat := []
  worker : List WorkerItem := []
deriving DecidableEq, Repr

namespace WinPipeEndpoint

inductive Event where
  | writeAsync (timed : Bool)
  | readAsync (timed : Bool)
  | timerExpires (timerId : Nat)
  | timerHandler (timerId : Nat)
  /-- The end of a timer callback: `operation_to_resolve->resolve()`. -/
  | resolveTimedOut (tag : PipeSide) (index : Nat)
  | runTask (tag : PipeSide)
  | ioCall (tag : PipeSide) (call : IoCall)
  /-- I/O completes, and its packet is queued. -/
  | ioCompletes (tag : PipeSide) (index : Nat) (status : IoStatus) (bytes : Nat)
  | runWorker
  /-- The callback on the future of an operation goes on. -/
  | continuation (tag : PipeSide) (index : Nat)
  | invalidate
  | setDisconnectCallback (callback : Nat)
deriving DecidableEq, Repr

def side (s : WinPipeEndpoint) : PipeSide → WinPipeSide
  | .write => s.writes
  | .read => s.reads

def setSide (s : WinPipeEndpoint) (tag : PipeSide) (side : WinPipeSide) : WinPipeEndpoint :=
  match tag with
  | .write => { s with writes := side }
  | .read => { s with reads := side }

/-- `write_async` and `read_async` -/
def startAsync (s : WinPipeEndpoint) (tag : PipeSide) (timed : Bool) : WinPipeEndpoint :=
  let side := s.side tag
  if s.isOpen then
    let timerId := if timed then some s.timer.nextId else none
    let timer := if timed then s.timer.start (tag, side.ops.length) else s.timer
    { s with timer }.setSide tag (side.startAsync timerId)
  else s.setSide tag { side with refused := side.refused + 1 }

def invalidateImpl (s : WinPipeEndpoint) (byCancel : Bool) : WinPipeEndpoint :=
  if s.isOpen then
    let setResult : WinPipeOperation → WinPipeOperation :=
      if byCancel then .setCanceledIfPossible else .setFailedIfPossible
    { s with
      writes := s.writes.invalidate setResult
      reads := s.reads.invalidate setResult
      isOpen := false
      disconnectsRun := s.disconnectsRun ++ s.disconnectCallbacks
      disconnectCallbacks := [] }
  else s

/-- The second half of the callback on the future. -/
def completeOp (s : WinPipeEndpoint) (tag : PipeSide) (id : Nat) : WinPipeEndpoint :=
  let (side, timerCancelled) := (s.side tag).completeOp id
  let timerId := (side.timerIds[id]?).join
  { s with timer := if timerCancelled then s.timer.cancelOptional timerId else s.timer }.setSide tag side

/-- The callback on the future of an operation: first the invalidation after a failure, then the completion. -/
def runContinuation (s : WinPipeEndpoint) (tag : PipeSide) (index : Nat) : Option WinPipeEndpoint :=
  match (s.side tag).continuations[index]? with
  | none => none
  | some continuation =>
      if continuation.checked then
        let side := s.side tag
        let s := s.setSide tag { side with continuations := side.continuations.eraseIdx index }
        some (s.completeOp tag continuation.id)
      else
        let s := if continuation.result = .failed then s.invalidateImpl false else s
        let side := s.side tag
        some (s.setSide tag { side with
          continuations := side.continuations.set index { continuation with checked := true } })

/-- The worker loop goes on with the first packet. -/
def runWorker (s : WinPipeEndpoint) : Option WinPipeEndpoint :=
  match s.worker with
  | [] => none
  | item :: rest =>
      let (side, left) := (s.side item.tag).runWorker item.tag item.id item.job
      some ({ s with worker := (left.map fun job => { item with job }).toList ++ rest }.setSide item.tag side)

def step (s : WinPipeEndpoint) : Event → Option WinPipeEndpoint
  | .writeAsync timed => some (s.startAsync .write timed)
  | .readAsync timed => some (s.startAsync .read timed)
  | .timerExpires timerId => (s.timer.expire timerId).map fun timer => { s with timer }
  | .timerHandler timerId =>
      match s.timer.handle timerId with
      | none => none
      | some (timer, none) => some { s with timer }
      | some (timer, some (tag, id)) => some ({ s with timer }.setSide tag ((s.side tag).cancelOpByTimeout id))
  | .resolveTimedOut tag index =>
      let side := s.side tag
      match side.resolving[index]? with
      | none => none
      | some id => some (s.setSide tag ({ side with resolving := side.resolving.eraseIdx index }.resolve id))
  | .runTask tag => ((s.side tag).runTask tag s.isOpen).map (s.setSide tag)
  | .ioCall tag call => ((s.side tag).ioCall tag s.isOpen call).map (s.setSide tag)
  | .ioCompletes tag index status bytes =>
      let side := s.side tag
      match side.inFlight[index]? with
      | none => none
      | some io =>
          if status = .operationAborted ∧ ¬ io.aborted then none
          else
            let packet : WorkerItem := { tag, id := io.id, job := .completed status bytes }
            some ({ s with worker := s.worker ++ [packet] }.setSide tag
              { side with inFlight := side.inFlight.eraseIdx index })
  | .runWorker => s.runWorker
  | .continuation tag index => s.runContinuation tag index
  | .invalidate => some (s.invalidateImpl true)
  | .setDisconnectCallback callback =>
      if s.isOpen then some { s with disconnectCallbacks := s.disconnectCallbacks ++ [callback] }
      else some { s with disconnectsRun := s.disconnectsRun ++ [callback] }

def machine : Lib.Machine WinPipeEndpoint Event where
  step := step

end WinPipeEndpoint

end CommonRpc
