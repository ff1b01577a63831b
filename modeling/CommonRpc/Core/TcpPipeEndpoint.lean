/-
Module: CommonRpc.Core.TcpPipeEndpoint
Purpose: `tcp_pipe_endpoint::impl`: length-prefixed messages over a stream socket. The write side and the
  read side run the same templates over their own list of operations, so the model is written once over
  `PipeOperation` and instantiated at `WriteOperation` and `ReadOperation`. An operation list is kept from
  its back: the head is `operations.back()`, the active operation, and `emplace_front` appends. Every
  critical section is one step, together with the publication of the results it collected. The socket and
  the timers are driven by events; an event carries what the socket reports, without assuming that it
  reports something sensible.
Trusted boundary: operation ids do not wrap
-/
import CommonRpc.Core.MultipleTimer
import CommonRpc.Core.Types
import CommonRpc.Lib.BigEndian
import CommonRpc.Lib.Transition

namespace CommonRpc

open Lib.BigEndian

/-- `s_header_size`. -/
def HeaderSize : Nat := 4

/-- What a completion handler is told about its socket operation. -/
inductive ErrorCode where
  | ok
  | operationAborted
  | other
deriving DecidableEq, Repr

/-- The memory a socket operation works on: bytes to send, or room for bytes to receive. -/
inductive SocketBuffer where
  | source (bytes : Bytes)
  | destination (size : Nat)
deriving DecidableEq, Repr

def SocketBuffer.size : SocketBuffer → Nat
  | .source bytes => bytes.length
  | .destination size => size

inductive OpPhase where
  | header
  | payload
deriving DecidableEq, Repr

/-- An `async_write_some` or `async_read_some` whose handler has not run. -/
structure SocketOp where
  /-- The operation whose memory the buffer points into. -/
  opId : Nat
  phase : OpPhase
  buffer : SocketBuffer
deriving DecidableEq, Repr

/-! ### Operations -/

/-- What the templates of the endpoint ask of `write_operation` and `read_operation`. -/
class PipeOperation (ω : Type) where
  addBytes : ω → Nat → ω
  /-- The socket fills the memory the operation handed out. -/
  receive : ω → Bytes → ω
  isPromiseResolved : ω → Bool
  /-- `take_pending_result` when the promise is not resolved: what stays of the operation. -/
  resolve : ω → PipeOpRes → ω
  /-- `take_pending_result` when the promise is not resolved: the buffer that goes with the result. -/
  resultBuffer : ω → PipeOpRes → Buffer
  headerBuffer : ω → SocketBuffer
  payloadBuffer : ω → SocketBuffer
  isHeaderCompleted : ω → Bool
  isPayloadCompleted : ω → Bool
  isPromiseResolved_resolve : ∀ op r, isPromiseResolved (resolve op r) = true
  isPromiseResolved_addBytes : ∀ op bytes, isPromiseResolved (addBytes op bytes) = isPromiseResolved op
  isPromiseResolved_receive : ∀ op chunk, isPromiseResolved (receive op chunk) = isPromiseResolved op

/-- `write_operation`. -/
structure WriteOperation where
  payload : Bytes
  bytesTransferred : Nat := 0
  promiseResolved : Bool := false
deriving DecidableEq, Repr

namespace WriteOperation

/-- The bytes of `m_write_header_big_endian`. -/
def header (op : WriteOperation) : Bytes := toBytes HeaderSize op.payload.length

/-- `m_bytes_total`. -/
def bytesTotal (op : WriteOperation) : Nat := HeaderSize + op.payload.length

def addBytes (op : WriteOperation) (bytes : Nat) : WriteOperation :=
  { op with bytesTransferred := op.bytesTransferred + bytes }

def getUnwrittenHeaderBuffer (op : WriteOperation) : Bytes := op.header.drop op.bytesTransferred

def getUnwrittenPayloadBuffer (op : WriteOperation) : Bytes :=
  op.payload.drop (op.bytesTransferred - HeaderSize)

def isHeaderCompleted (op : WriteOperation) : Bool := decide (HeaderSize ≤ op.bytesTransferred)

def isPayloadCompleted (op : WriteOperation) : Bool := op.bytesTransferred == op.bytesTotal

instance : PipeOperation WriteOperation where
  addBytes := addBytes
  receive op _ := op
  isPromiseResolved := promiseResolved
  resolve op _ := { op with promiseResolved := true }
  resultBuffer _ _ := none
  headerBuffer op := .source op.getUnwrittenHeaderBuffer
  payloadBuffer op := .source op.getUnwrittenPayloadBuffer
  isHeaderCompleted := isHeaderCompleted
  isPayloadCompleted := isPayloadCompleted
  isPromiseResolved_resolve _ _ := rfl
  isPromiseResolved_addBytes _ _ := rfl
  isPromiseResolved_receive _ _ := rfl

end WriteOperation

/-- `read_operation`. The bytes the socket put into `m_header` and `m_payload_buffer` are kept in one list,
    the header first. -/
structure ReadOperation where
  data : Bytes := []
  bytesRead : Nat := 0
  /-- The size of `m_payload_buffer`; `none` while it is null. -/
  payloadSize : Option Nat := none
  promiseResolved : Bool := false
deriving DecidableEq, Repr

namespace ReadOperation

/-- `big_to_native(m_header)`. -/
def messageSize (op : ReadOperation) : Nat := ofBytes (op.data.take HeaderSize)

def addBytes (op : ReadOperation) (bytes : Nat) : ReadOperation :=
  let op := { op with bytesRead := op.bytesRead + bytes }
  if op.payloadSize.isNone ∧ op.bytesRead = HeaderSize ∧
      op.messageSize ≠ 0 ∧ op.messageSize ≤ MaxTransferMessageSize then
    { op with payloadSize := some op.messageSize }
  else op

def isPayloadBufferValid (op : ReadOperation) : Bool := op.payloadSize.isSome

def isHeaderCompleted (op : ReadOperation) : Bool := decide (HeaderSize ≤ op.bytesRead)

def isPayloadCompleted (op : ReadOperation) : Bool :=
  match op.payloadSize with
  | none => false
  | some size => op.bytesRead == size + HeaderSize

/-- The buffer of `take_pending_result`: on success `m_payload_buffer` is moved out. -/
def resultBuffer (op : ReadOperation) : PipeOpRes → Buffer
  | .success => op.payloadSize.map fun _ => op.data.drop HeaderSize
  | _ => none

def resolve (op : ReadOperation) : PipeOpRes → ReadOperation
  | .success => { op with promiseResolved := true, payloadSize := none }
  | _ => { op with promiseResolved := true }

instance : PipeOperation ReadOperation where
  addBytes := addBytes
  receive op chunk := { op with data := op.data ++ chunk }
  isPromiseResolved := promiseResolved
  resolve := resolve
  resultBuffer := resultBuffer
  headerBuffer op := .destination (HeaderSize - op.bytesRead)
  payloadBuffer op := .destination (op.payloadSize.getD 0 - (op.bytesRead - HeaderSize))
  isHeaderCompleted := isHeaderCompleted
  isPayloadCompleted := isPayloadCompleted
  isPromiseResolved_resolve op r := by cases r <;> rfl
  isPromiseResolved_addBytes op bytes := by
    simp only [addBytes]
    split <;> rfl
  isPromiseResolved_receive _ _ := rfl

end ReadOperation

/-! ### The state -/

/-- `write_operation_data` or `read_operation_data`. -/
structure OperationData (ω : Type) where
  id : Nat
  op : ω
  timerId : Option Nat
deriving DecidableEq, Repr

/-- A promise that was set. -/
structure OpResult where
  id : Nat
  result : PipeOpRes
  buffer : Buffer
deriving DecidableEq, Repr

/-- The members that `m_write_mtx` or `m_read_mtx` guards, and what the side has done so far. -/
structure OpSide (ω : Type) where
  nextOpId : Nat := 0
  /-- From the back of the list: the head is the active operation. -/
  operations : List (OperationData ω) := []
  outstanding : List SocketOp := []
  results : List OpResult := []
  /-- Calls that were answered with a ready `failed` future because the socket was closed. -/
  refused : Nat := 0
  /-- The operations as they were created, by id. -/
  created : List ω := []
  /-- The operations that came to the back of the list and were started, in that order. -/
  activated : List Nat := []
  /-- The bytes that went through the socket, with the operation they were for. -/
  moved : List (Nat × Bytes) := []
deriving DecidableEq, Repr

inductive PipeSide where
  | write
  | read
deriving DecidableEq, Repr

/-- The members that `m_socket_mtx` guards, and the timers; a timer callback captures its operation. -/
structure EndpointCommon where
  isOpen : Bool := true
  wasInvalidatedByFail : Bool := false
  disconnectCallbacks : List Nat := []
  disconnectsRun : List Nat := []
  timer : MultipleTimer (PipeSide × Nat) := {}
deriving DecidableEq, Repr

/-- `invalidate_unsafe`. -/
def EndpointCommon.invalidateUnsafe (c : EndpointCommon) (byCancel : Bool) : EndpointCommon :=
  { c with
    isOpen := false
    wasInvalidatedByFail := if c.isOpen then !byCancel else c.wasInvalidatedByFail
    disconnectsRun := c.disconnectsRun ++ c.disconnectCallbacks
    disconnectCallbacks := [] }

def EndpointCommon.setDisconnectCallback (c : EndpointCommon) (callback : Nat) : EndpointCommon :=
  if c.isOpen then { c with disconnectCallbacks := c.disconnectCallbacks ++ [callback] }
  else { c with disconnectsRun := c.disconnectsRun ++ [callback] }

/-- How operations end on a closed socket. -/
def EndpointCommon.closedResult (c : EndpointCommon) : PipeOpRes :=
  if c.wasInvalidatedByFail then .failed else .canceled

/-- What an instance of the templates works on: one list of operations and the shared members. -/
structure Part (ω : Type) where
  side : OpSide ω
  common : EndpointCommon

namespace Part

variable {ω : Type} [PipeOperation ω]

open PipeOperation

/-- `take_pending_result`: nothing if the promise is resolved. -/
def takePendingResult (r : PipeOpRes) (data : OperationData ω) : Option OpResult :=
  if isPromiseResolved data.op then none else some ⟨data.id, r, resultBuffer data.op r⟩

/-- `complete_all_operations_unsafe`. -/
def completeAllOperationsUnsafe (r : PipeOpRes) (p : Part ω) : Part ω where
  side := { p.side with
    operations := []
    results := p.side.results ++ p.side.operations.filterMap (takePendingResult r) }
  common := { p.common with
    timer := p.side.operations.foldl (fun timer data => timer.cancelOptional data.timerId) p.common.timer }

/-- `async_write_some` or `async_read_some` for the back operation. -/
def issue (data : OperationData ω) (phase : OpPhase) (buffer : SocketBuffer) (p : Part ω) : Part ω :=
  { p with side := { p.side with outstanding := p.side.outstanding ++ [⟨data.id, phase, buffer⟩] } }

/-- `start_write_header_async` and `start_read_header_async`. The list is not empty. -/
def startHeaderAsync (p : Part ω) : Part ω :=
  match p.side.operations with
  | [] => p
  | back :: _ =>
      if p.common.isOpen then p.issue back .header (headerBuffer back.op)
      else p.completeAllOperationsUnsafe p.common.closedResult

/-- What the two payload starters share. The list is not empty. -/
def startPayloadAsync (p : Part ω) : Part ω :=
  match p.side.operations with
  | [] => p
  | back :: _ =>
      if p.common.isOpen then p.issue back .payload (payloadBuffer back.op)
      else p.completeAllOperationsUnsafe p.common.closedResult

/-- The branch of a handler that was given an error. -/
def onError (ec : ErrorCode) (p : Part ω) : Part ω :=
  if ec = .operationAborted ∨ ¬ p.common.isOpen then
    p.completeAllOperationsUnsafe p.common.closedResult
  else
    { p with common := p.common.invalidateUnsafe false }.completeAllOperationsUnsafe .failed

/-- `operations.back().op.add_bytes(bytes)`. -/
def addBytesToBack (bytes : Nat) (p : Part ω) : Part ω :=
  match p.side.operations with
  | [] => p
  | back :: rest =>
      { p with side := { p.side with operations := { back with op := addBytes back.op bytes } :: rest } }

/-- `on_header_operation`; the list is not empty. -/
def onHeaderOperation (startPayload : Part ω → Part ω) (ec : ErrorCode) (bytes : Nat) (p : Part ω) :
    Part ω :=
  let p := p.addBytesToBack bytes
  match p.side.operations with
  | [] => p
  | back :: _ =>
      if ec ≠ .ok then p.onError ec
      else if isHeaderCompleted back.op then startPayload p
      else p.startHeaderAsync

/-- The back operation becomes the active one if it can be started. -/
def activateBack (p : Part ω) : Part ω :=
  match p.side.operations with
  | [] => p
  | back :: _ =>
      if p.common.isOpen then
        { p with side := { p.side with activated := p.side.activated ++ [back.id] } }
      else p

/-- The end of an operation: it reports success, its timer is cancelled and it leaves the list. -/
def finishBack (back : OperationData ω) (rest : List (OperationData ω)) (p : Part ω) : Part ω where
  side := { p.side with
    results := p.side.results ++ (takePendingResult .success back).toList
    operations := rest }
  common := { p.common with timer := p.common.timer.cancelOptional back.timerId }

/-- `on_payload_operation`; the list is not empty. -/
def onPayloadOperation (startPayload : Part ω → Part ω) (ec : ErrorCode) (bytes : Nat) (p : Part ω) :
    Part ω :=
  let p := p.addBytesToBack bytes
  match p.side.operations with
  | [] => p
  | back :: rest =>
      if ec ≠ .ok then p.onError ec
      else if !isPayloadCompleted back.op then startPayload p
      else
        let p := p.finishBack back rest
        if rest.isEmpty then p else p.activateBack.startHeaderAsync

/-- The socket has done an outstanding operation: the bytes went through the memory of the operation. -/
def transfer (index : Nat) (socketOp : SocketOp) (chunk : Bytes) (p : Part ω) : Part ω :=
  { p with side := { p.side with
    outstanding := p.side.outstanding.eraseIdx index
    moved := p.side.moved ++ [(socketOp.opId, chunk)]
    operations := p.side.operations.map fun data : OperationData ω =>
      if data.id = socketOp.opId then { data with op := receive data.op chunk } else data } }

/-- The handler of an outstanding socket operation runs. -/
def onSocketOp (startPayload : Part ω → Part ω) (index : Nat) (ec : ErrorCode) (bytes : Nat)
    (chunk : SocketBuffer → Bytes) (p : Part ω) : Option (Part ω) :=
  match p.side.outstanding[index]? with
  | none => none
  | some socketOp =>
      let p := p.transfer index socketOp (chunk socketOp.buffer)
      match socketOp.phase with
      | .header => some (p.onHeaderOperation startPayload ec bytes)
      | .payload => some (p.onPayloadOperation startPayload ec bytes)

/-- The callback of an operation's timer. The active operation stays in the list, without its promise. -/
def onTimer (id : Nat) (p : Part ω) : Part ω :=
  match p.side.operations.find? fun data => data.id = id with
  | none => p
  | some data =>
      let r := if p.common.isOpen then .timeout else p.common.closedResult
      let results := p.side.results ++ (takePendingResult r data).toList
      if p.side.operations.head?.map OperationData.id = some id then
        { p with side := { p.side with
          results := results
          operations := p.side.operations.map fun other =>
            if other.id = id ∧ isPromiseResolved other.op = false then
              { other with op := resolve other.op r } else other } }
      else
        { p with side := { p.side with
          results := results
          operations := p.side.operations.eraseP fun other => other.id = id } }

/-- `write_async` and `read_async`, with the operation that the call creates. -/
def startAsync (tag : PipeSide) (op : ω) (timed : Bool) (p : Part ω) : Part ω :=
  if p.common.isOpen then
    let id := p.side.nextOpId
    let data : OperationData ω :=
      { id := id, op := op, timerId := if timed then some p.common.timer.nextId else none }
    let p : Part ω :=
      { side := { p.side with
          nextOpId := id + 1
          created := p.side.created ++ [op]
          operations := p.side.operations ++ [data] }
        common := { p.common with
          timer := if timed then p.common.timer.start (tag, id) else p.common.timer } }
    if p.side.operations.length = 1 then p.activateBack.startHeaderAsync else p
  else { p with side := { p.side with refused := p.side.refused + 1 } }

end Part

/-- `tcp_pipe_endpoint::impl`. -/
structure TcpPipeEndpoint where
  writes : OpSide WriteOperation := {}
  reads : OpSide ReadOperation := {}
  common : EndpointCommon := {}
deriving DecidableEq, Repr

namespace TcpPipeEndpoint

def writePart (s : TcpPipeEndpoint) : Part WriteOperation := ⟨s.writes, s.common⟩

def readPart (s : TcpPipeEndpoint) : Part ReadOperation := ⟨s.reads, s.common⟩

def withWrite (s : TcpPipeEndpoint) (p : Part WriteOperation) : TcpPipeEndpoint :=
  { s with writes := p.side, common := p.common }

def withRead (s : TcpPipeEndpoint) (p : Part ReadOperation) : TcpPipeEndpoint :=
  { s with reads := p.side, common := p.common }

def startWritePayloadAsync : Part WriteOperation → Part WriteOperation := Part.startPayloadAsync

/-- Only the read side looks at the header it got before it goes on, and it does so before it looks at the
    socket. -/
def startReadPayloadAsync (p : Part ReadOperation) : Part ReadOperation :=
  match p.side.operations with
  | [] => p
  | back :: _ =>
      if back.op.isPayloadBufferValid then p.startPayloadAsync
      else { p with common := p.common.invalidateUnsafe false }.completeAllOperationsUnsafe .failed

def writeAsync (s : TcpPipeEndpoint) (message : Bytes) (timed : Bool) : TcpPipeEndpoint :=
  s.withWrite (s.writePart.startAsync .write { payload := message } timed)

def readAsync (s : TcpPipeEndpoint) (timed : Bool) : TcpPipeEndpoint :=
  s.withRead (s.readPart.startAsync .read {} timed)

/-- A timer callback, on the side of its operation. -/
def onTimer (s : TcpPipeEndpoint) : PipeSide × Nat → TcpPipeEndpoint
  | (.write, id) => s.withWrite (s.writePart.onTimer id)
  | (.read, id) => s.withRead (s.readPart.onTimer id)

def invalidate (s : TcpPipeEndpoint) : TcpPipeEndpoint :=
  { s with common := s.common.invalidateUnsafe true }

/-- The bytes a socket takes from a buffer when it reports a count. -/
def sentOf (bytes : Nat) : SocketBuffer → Bytes
  | .source source => source.take bytes
  | .destination _ => []

/-- What may happen next to an endpoint. -/
inductive Event where
  | writeAsync (message : Bytes) (timed : Bool)
  | readAsync (timed : Bool)
  /-- The handler of an outstanding `async_write_some`. -/
  | written (index : Nat) (ec : ErrorCode) (bytes : Nat)
  /-- The handler of an outstanding `async_read_some`, with the bytes that arrived. -/
  | received (index : Nat) (ec : ErrorCode) (chunk : Bytes)
  | timerExpires (timerId : Nat)
  | timerHandler (timerId : Nat)
  | invalidate
  | setDisconnectCallback (callback : Nat)
deriving DecidableEq, Repr

def step (s : TcpPipeEndpoint) : Event → Option TcpPipeEndpoint
  | .writeAsync message timed => some (s.writeAsync message timed)
  | .readAsync timed => some (s.readAsync timed)
  | .written index ec bytes =>
      (s.writePart.onSocketOp startWritePayloadAsync index ec bytes (sentOf bytes)).map s.withWrite
  | .received index ec chunk =>
      (s.readPart.onSocketOp startReadPayloadAsync index ec chunk.length (fun _ => chunk)).map s.withRead
  | .timerExpires timerId =>
      (s.common.timer.expire timerId).map fun timer => { s with common := { s.common with timer := timer } }
  | .timerHandler timerId =>
      match s.common.timer.handle timerId with
      | none => none
      | some (timer, callback) =>
          let s := { s with common := { s.common with timer := timer } }
          match callback with
          | none => some s
          | some operation => some (s.onTimer operation)
  | .invalidate => some s.invalidate
  | .setDisconnectCallback callback =>
      some { s with common := s.common.setDisconnectCallback callback }

def machine : Lib.Machine TcpPipeEndpoint Event where
  step := step

end TcpPipeEndpoint

end CommonRpc
