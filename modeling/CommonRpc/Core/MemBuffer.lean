/-
Module: CommonRpc.Core.MemBuffer
Purpose: `mem_buffer`, one direction of the in-memory pipe. A write posts a task to the write strand whose
  two critical sections, `write_impl` and `resolve_read_promise`, are separate steps here; a read posts a
  task to the read strand; timers of waiting reads lock the promise container alone. Each strand runs its
  tasks one at a time in the order they were posted, and the two strands and the timers interleave freely.
  The tags on messages and the log of completed futures are there to be spoken about: no step reads them.
Trusted boundary: strands run their tasks serially in post order; promise ids do not wrap
-/
import CommonRpc.Core.MultipleTimer
import CommonRpc.Core.Types
import CommonRpc.Lib.Transition

namespace CommonRpc

/-- A buffer on its way, tagged with the `write_async` call that brought it. -/
structure Message where
  writeId : Nat
  data : Buffer
deriving DecidableEq, Repr

/-- A task of the write strand: what the lambda of `write_async` captured. -/
structure WriteTask where
  message : Message
  /-- `none` is `time_point::max()`, which no clock reading passes. -/
  timeoutPoint : Option Int
deriving DecidableEq, Repr

/-- A task of the read strand: what the lambda of `read_async` captured. -/
structure ReadTask where
  id : Nat
  timeout : Option Nat
  startedWhileValid : Bool
deriving DecidableEq, Repr

/-- `read_promise_data`: a waiting read. `promise` names the `read_async` call it answers. -/
structure ReadPromiseData where
  id : Nat
  timerId : Option Nat
  promise : Nat
deriving DecidableEq, Repr

/-- A future that was completed, with the call it belongs to. -/
inductive MemCompletion where
  | write (message : Message) (result : PipeOpRes)
  | read (id : Nat) (result : PipeOpRes) (message : Option Message)
deriving DecidableEq, Repr

/-- `mem_buffer` with its two strands. -/
structure MemBuffer where
  isValid : Bool := true
  readInvalidationResult : PipeOpRes := .failed
  buffer : List Message := []
  readPromises : List ReadPromiseData := []
  nextReadPromiseId : Nat := 0
  timer : MultipleTimer Nat := {}
  readStrand : List ReadTask := []
  writeStrand : List WriteTask := []
  /-- The running task of the write strand is between `write_impl` and `resolve_read_promise`. -/
  resolving : Bool := false
  /-- The buffers given to `write_async` so far; a write is named by its place here. -/
  writeCalls : List Buffer := []
  /-- The number of `read_async` calls so far; a read is named by its place among them. -/
  readCalls : Nat := 0
  completions : List MemCompletion := []
deriving DecidableEq, Repr

namespace MemBuffer

/-- What the environment may let happen next. Clock readings and a failing allocation are its choice. -/
inductive Event where
  | writeAsync (data : Buffer) (timeout : Option Nat) (now : Int)
  | readAsync (timeout : Option Nat)
  | writeImpl (now : Int) (pushThrows : Bool)
  | resolveReadPromise
  | readImpl
  | timerExpires (id : Nat)
  | timerHandler (id : Nat)
  | invalidate (cancelRead : Bool)
deriving DecidableEq, Repr

def complete (s : MemBuffer) (done : MemCompletion) : MemBuffer :=
  { s with completions := s.completions ++ [done] }

def writeAsync (s : MemBuffer) (data : Buffer) (timeout : Option Nat) (now : Int) : MemBuffer :=
  let id := s.writeCalls.length
  let called := { s with writeCalls := s.writeCalls ++ [data] }
  if s.isValid then
    let task : WriteTask :=
      { message := { writeId := id, data := data }
        timeoutPoint := timeout.map fun milliseconds => now + milliseconds * 1000000 }
    { called with writeStrand := s.writeStrand ++ [task] }
  else called.complete (.write { writeId := id, data := data } .failed)

def readAsync (s : MemBuffer) (timeout : Option Nat) : MemBuffer :=
  let task : ReadTask :=
    { id := s.readCalls, timeout := timeout, startedWhileValid := s.isValid }
  { s with readCalls := s.readCalls + 1, readStrand := s.readStrand ++ [task] }

/-- `write_impl` and the completion of the write's promise with what it returns. -/
def writeImpl (s : MemBuffer) (task : WriteTask) (now : Int) (pushThrows : Bool) : MemBuffer :=
  if !s.isValid then s.complete (.write task.message .canceled)
  else if task.timeoutPoint.any fun point => now > point then
    s.complete (.write task.message .timeout)
  else if pushThrows then s.complete (.write task.message .failed)
  else
    { s with buffer := s.buffer ++ [task.message] }.complete (.write task.message .success)

def resolveReadPromise (s : MemBuffer) : MemBuffer :=
  match s.readPromises, s.buffer with
  | waiting :: promises, message :: rest =>
      { s with
        buffer := rest
        timer := s.timer.cancelOptional waiting.timerId
        readPromises := promises }.complete (.read waiting.promise .success (some message))
  | _, _ => s

def readImpl (s : MemBuffer) (task : ReadTask) : MemBuffer :=
  if !s.isValid then
    let result := if task.startedWhileValid then s.readInvalidationResult else .failed
    s.complete (.read task.id result none)
  else match s.buffer with
    | message :: rest =>
        { s with buffer := rest }.complete (.read task.id .success (some message))
    | [] =>
        let waiting : ReadPromiseData :=
          { id := s.nextReadPromiseId
            timerId := task.timeout.map fun _ => s.timer.nextId
            promise := task.id }
        { s with
          nextReadPromiseId := s.nextReadPromiseId + 1
          timer := if task.timeout.isSome then s.timer.start waiting.id else s.timer
          readPromises := s.readPromises ++ [waiting] }

/-- The timeout callback of the waiting read with this promise id. -/
def timeoutCallback (s : MemBuffer) (id : Nat) : MemBuffer :=
  match s.readPromises.find? fun waiting => waiting.id = id with
  | none => s
  | some waiting =>
      { s with readPromises := s.readPromises.filter fun other => other.id ≠ id }.complete
        (.read waiting.promise .timeout none)

def invalidate (s : MemBuffer) (cancelRead : Bool) : MemBuffer :=
  if !s.isValid then s
  else
    let result : PipeOpRes := if cancelRead then .canceled else .failed
    { s with
      isValid := false
      readInvalidationResult := result
      buffer := []
      readPromises := []
      timer := s.timer.cancelAll
      completions := s.completions ++
        s.readPromises.map fun waiting => .read waiting.promise result none }

/-- One step. The write strand takes its next task only when the running one is through, and a task leaves
    its strand when its first critical section runs. -/
def step (s : MemBuffer) : Event → Option MemBuffer
  | .writeAsync data timeout now => some (s.writeAsync data timeout now)
  | .readAsync timeout => some (s.readAsync timeout)
  | .writeImpl now pushThrows =>
      match s.resolving, s.writeStrand with
      | false, task :: tasks =>
          some ({ s with writeStrand := tasks, resolving := true }.writeImpl task now pushThrows)
      | _, _ => none
  | .resolveReadPromise =>
      if s.resolving then some { s with resolving := false }.resolveReadPromise else none
  | .readImpl =>
      match s.readStrand with
      | task :: tasks => some ({ s with readStrand := tasks }.readImpl task)
      | [] => none
  | .timerExpires id => (s.timer.expire id).map fun timer => { s with timer := timer }
  | .timerHandler id =>
      (s.timer.handle id).map fun handled =>
        match handled.2 with
        | none => { s with timer := handled.1 }
        | some promiseId => { s with timer := handled.1 }.timeoutCallback promiseId
  | .invalidate cancelRead => some (s.invalidate cancelRead)

def machine : Lib.Machine MemBuffer Event where
  step := step

end MemBuffer

end CommonRpc
