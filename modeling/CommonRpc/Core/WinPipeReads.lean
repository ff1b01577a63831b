/-
Module: CommonRpc.Core.WinPipeReads
Purpose: What the read operations of a `win_pipe_endpoint` read. The peer writes messages to a message pipe; a read
  takes from the first one, into the last buffer of the operation. The machine is that of the endpoint, with the
  contents of `m_buffers` and with the answers of `ReadFile` and the completion packets computed from what is in
  the pipe: only whether a read completes inside `start` or later, and when, is up to the environment.
Trusted boundary: a read into `s` bytes of a message of which `r` bytes are left returns `min r s` bytes, with
  `ERROR_MORE_DATA` iff `s < r`; it then leaves the rest of the message in the pipe, and otherwise the next
  message. I/O that was cancelled and completes with `ERROR_OPERATION_ABORTED` takes nothing. The peer stays
  connected, so that `ReadFile` fails only on a handle that was closed
-/
import CommonRpc.Core.WinPipeEndpoint

namespace CommonRpc

/-! ### Buffers -/

/-- A `cl::buffer`; its bytes come from `new std::byte[size]` and have no value before they are written. -/
abbrev ReadBuffer := List (Option UInt8)

def newBuffer (size : Nat) : ReadBuffer := List.replicate size none

/-- The body of the inner loop of `merge_buffers`, on `ans` and `curr_pos`; both loops end when `ans` is full. -/
def copyByte (size : Nat) (copied : ReadBuffer × Nat) (byte : Option UInt8) : ReadBuffer × Nat :=
  let (ans, currPos) := copied
  if currPos < size then (ans.set currPos byte, currPos + 1) else (ans, currPos)

def mergeBuffers (buffers : List ReadBuffer) (size : Nat) : ReadBuffer :=
  (buffers.foldl (fun copied buffer => buffer.foldl (copyByte size) copied) (newBuffer size, 0)).1

/-- The front of a buffer is written. -/
def ReadBuffer.fill (bytes : Bytes) (buffer : ReadBuffer) : ReadBuffer :=
  bytes.map some ++ buffer.drop bytes.length

/-- `ReadFile` writes to `m_buffers.back()`. -/
def fillLast (bytes : Bytes) (buffers : List ReadBuffer) : List ReadBuffer :=
  buffers.dropLast ++ buffers.getLast?.toList.map (ReadBuffer.fill bytes)

/-- What an operation with buffers of these sizes has pushed to `m_buffers` is allocated. -/
def allocate (buffers : List ReadBuffer) (sizes : List Nat) : List ReadBuffer :=
  buffers ++ (sizes.drop buffers.length).map newBuffer

def allocateAll (buffers : List (List ReadBuffer)) (ops : List WinPipeOperation) : List (List ReadBuffer) :=
  ops.mapIdx fun id op => allocate (buffers[id]?.getD []) op.buffers

/-! ### The pipe -/

structure PipeRead where
  bytes : Bytes
  /-- `ERROR_MORE_DATA` -/
  moreData : Bool
  /-- What is in the pipe afterwards. -/
  left : List Bytes
deriving DecidableEq, Repr

/-- A read into `size` bytes; `none` while there is no message. -/
def readMessage (pipe : List Bytes) (size : Nat) : Option PipeRead :=
  match pipe with
  | [] => none
  | message :: rest =>
      if size < message.length then
        some { bytes := message.take size, moreData := true, left := message.drop size :: rest }
      else some { bytes := message, moreData := false, left := rest }

/-! ### The state -/

/-- What the promise of a read operation was set to; `none` is the null buffer. -/
structure ReadPromise where
  id : Nat
  result : WinPipeOperationRes
  buffer : Option ReadBuffer
deriving DecidableEq, Repr

/-- An endpoint whose peer writes messages. -/
structure WinPipeReader where
  endpoint : WinPipeEndpoint := {}
  /-- `m_buffers` of the read operations by their ids. -/
  buffers : List (List ReadBuffer) := []
  /-- The messages in the pipe; of the first one what nobody has read. -/
  pipe : List Bytes := []
  /-- Everything that the peer has written. -/
  sent : List Bytes := []
  received : List ReadPromise := []
deriving DecidableEq, Repr

/-- `ReadFile` on this side and its completion packets, which depend on the pipe. -/
def WinPipeEndpoint.Event.isReadIo : WinPipeEndpoint.Event → Bool
  | .ioCall .read _ | .ioCompletes .read _ _ _ => true
  | _ => false

/-- What `resolve()` gives to `m_promise.set_value`. -/
def WinPipeOperation.promised (op : WinPipeOperation) (id : Nat) (buffers : List ReadBuffer) : ReadPromise where
  id
  result := op.result
  buffer := if op.result = .success then some (mergeBuffers buffers op.readBytes) else none

namespace WinPipeReader

inductive Event where
  /-- The peer writes a message. -/
  | send (message : Bytes)
  /-- `ReadFile` returns with `ERROR_MORE_DATA`. -/
  | readMoreData
  /-- `ReadFile` returns at once or with `ERROR_IO_PENDING`: a completion packet will come. -/
  | readPending
  /-- `ReadFile` fails on the closed handle. -/
  | readFails
  | readCompletes (index : Nat)
  | readAborted (index : Nat)
  /-- Everything else that can happen to the endpoint. -/
  | other (event : WinPipeEndpoint.Event)
deriving DecidableEq, Repr

/-- The endpoint has made a step: the buffers that it has pushed are there, and the promises that it has set have
    their values. -/
def follow (s : WinPipeReader) (endpoint : WinPipeEndpoint) : WinPipeReader :=
  let side := endpoint.reads
  let buffers := allocateAll s.buffers side.ops
  let promised := (side.resolved.drop s.endpoint.reads.resolved.length).map fun (id, _) =>
    (side.ops[id]?.getD {}).promised id (buffers[id]?.getD [])
  { s with endpoint, buffers, received := s.received ++ promised }

def stepEndpoint (s : WinPipeReader) (event : WinPipeEndpoint.Event) : Option WinPipeReader :=
  (WinPipeEndpoint.step s.endpoint event).map s.follow

/-- A read of the operation takes from the pipe what fits into its last buffer. -/
def transfer (s : WinPipeReader) (id : Nat) : Option (PipeRead × WinPipeReader) :=
  match s.buffers[id]?.bind List.getLast? with
  | none => none
  | some back =>
      (readMessage s.pipe back.length).map fun read =>
        (read, { s with pipe := read.left, buffers := s.buffers.modify id (fillLast read.bytes) })

def step (s : WinPipeReader) : Event → Option WinPipeReader
  | .send message => some { s with pipe := s.pipe ++ [message], sent := s.sent ++ [message] }
  | .readMoreData =>
      match s.endpoint.reads.tasks with
      | .issue id :: _ =>
          match s.transfer id with
          | none => none
          | some (read, s) => if read.moreData then s.stepEndpoint (.ioCall .read .moreData) else none
      | _ => none
  | .readPending => s.stepEndpoint (.ioCall .read .pending)
  | .readFails => if s.endpoint.isOpen then none else s.stepEndpoint (.ioCall .read .error)
  | .readCompletes index =>
      match s.endpoint.reads.inFlight[index]? with
      | none => none
      | some io =>
          match s.transfer io.id with
          | none => none
          | some (read, s) =>
              let status : IoStatus := if read.moreData then .moreData else .success
              s.stepEndpoint (.ioCompletes .read index status read.bytes.length)
  | .readAborted index => s.stepEndpoint (.ioCompletes .read index .operationAborted 0)
  | .other event => if event.isReadIo then none else s.stepEndpoint event

def machine : Lib.Machine WinPipeReader Event where
  step := step

end WinPipeReader

end CommonRpc
