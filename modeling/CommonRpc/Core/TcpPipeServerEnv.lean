/-
Module: CommonRpc.Core.TcpPipeServerEnv
Purpose: `tcp_pipe_server_env::impl`: a queue of `create_pipe` calls served by one acceptor. The list of
  operations is guarded by the mutex of the environment and the state of an operation by a mutex of its own,
  so the accept handler decides an operation without looking at the list, sets its promise after it has
  released the mutex, and the operation leaves the list only when the continuation of that promise runs.
  Each of these moments is a step. The list is kept from its back: the head is
  `m_create_operations.back()`, and `emplace_front` appends. The numbers of accepted sockets and the logs of
  granted sockets and aborted accepts are there to be spoken about: no step reads them.
Trusted boundary: `acceptor::cancel` aborts the accepts that have not completed and no others; operation ids do
  not wrap
-/
import CommonRpc.Core.MultipleTimer
import CommonRpc.Core.Types
import CommonRpc.Lib.Transition

namespace CommonRpc

/-- `create_operation`: the members its mutex guards. -/
structure CreateOperation where
  wasStarted : Bool := false
  wasCanceled : Bool := false
  canceledByTimer : Bool := false
deriving DecidableEq, Repr

/-- `create_operation_data`; the operation itself is found by the id. -/
structure CreateOperationData where
  id : Nat
  clientId : Nat
  timerId : Option Nat
deriving DecidableEq, Repr

/-- What an accept handler is given. -/
inductive AcceptOutcome where
  | socket (number : Nat)
  | error
  | aborted
deriving DecidableEq, Repr

/-- An `async_accept` whose handler has not run; `completion` is what the handler will be given, once it is
    queued. -/
structure Accept where
  opId : Nat
  completion : Option AcceptOutcome := none
deriving DecidableEq, Repr

/-- A value for the promise of a `create_pipe` call. -/
structure WaitCompletion where
  id : Nat
  result : PipeWaitRes
  endpoint : Option Nat
deriving DecidableEq, Repr

/-- `tcp_pipe_server_env::impl`. -/
structure TcpPipeServerEnv where
  nextId : Nat := 0
  createOperations : List CreateOperationData := []
  timer : MultipleTimer Nat := {}
  /-- The operation objects, by id; they outlive their place in the list. -/
  operations : List CreateOperation := []
  accepts : List Accept := []
  /-- Results that were decided under a mutex and whose promise is about to be set. -/
  completing : List WaitCompletion := []
  /-- The promises that were set. -/
  completions : List WaitCompletion := []
  /-- The continuations of set promises that have not run. -/
  continuations : List Nat := []
  nextSocket : Nat := 0
  /-- The operations that got a socket, with its number. -/
  granted : List (Nat × Nat) := []
  /-- The operation whose accept was aborted, with the operation that was being cancelled. -/
  aborted : List (Nat × Nat) := []
  /-- An assertion of `create_operation::start` failed. -/
  assertionFailed : Bool := false
deriving DecidableEq, Repr

namespace TcpPipeServerEnv

/-- What the environment may let happen next. -/
inductive Event where
  | createPipe (clientId : Nat) (timed : Bool)
  /-- The acceptor completes a waiting accept, with a socket or with an error. -/
  | acceptCompletes (index : Nat) (good : Bool)
  /-- The handler decides the operation; setting the socket options may fail. -/
  | acceptHandler (index : Nat) (optionFails : Bool)
  /-- A decided result is given to its promise. -/
  | complete (index : Nat)
  /-- A continuation runs `on_completed`. -/
  | onCompleted (index : Nat)
  | timerExpires (timerId : Nat)
  | timerHandler (timerId : Nat)
  | cancelPendingServerEndpoints (clientId : Option Nat)
deriving DecidableEq, Repr

def operation (s : TcpPipeServerEnv) (id : Nat) : CreateOperation := s.operations.getD id {}

/-- `create_operation::start`. -/
def start (s : TcpPipeServerEnv) (id : Nat) : TcpPipeServerEnv :=
  { s with
    assertionFailed := s.assertionFailed || (s.operation id).wasStarted || (s.operation id).wasCanceled
    operations := s.operations.modify id fun op => { op with wasStarted := true }
    accepts := s.accepts ++ [{ opId := id }] }

/-- `acceptor::cancel`, called for the operation `id`. -/
def acceptorCancel (s : TcpPipeServerEnv) (id : Nat) : TcpPipeServerEnv :=
  { s with
    accepts := s.accepts.map fun accept =>
      if accept.completion.isNone then { accept with completion := some .aborted } else accept
    aborted := s.aborted ++
      (s.accepts.filter fun accept => accept.completion.isNone).map fun accept => (accept.opId, id) }

def markCanceled (s : TcpPipeServerEnv) (id : Nat) (byTimer : Bool) : TcpPipeServerEnv :=
  { s with operations := s.operations.modify id fun op =>
      { op with wasCanceled := true, canceledByTimer := byTimer } }

/-- `create_operation::cancel`. -/
def cancel (s : TcpPipeServerEnv) (id : Nat) (byTimer : Bool) : TcpPipeServerEnv × Option PipeWaitRes :=
  if (s.operation id).wasCanceled then (s, none)
  else if (s.operation id).wasStarted then ((s.markCanceled id byTimer).acceptorCancel id, none)
  else (s.markCanceled id byTimer, some (if byTimer then .timeout else .canceled))

/-- A result of `cancel` is kept to complete the operation after the mutex is released. -/
def completeLater (s : TcpPipeServerEnv) (id : Nat) : Option PipeWaitRes → TcpPipeServerEnv
  | none => s
  | some result => { s with completing := s.completing ++ [⟨id, result, none⟩] }

def cancelOperation (s : TcpPipeServerEnv) (id : Nat) (byTimer : Bool) : TcpPipeServerEnv :=
  let canceled := s.cancel id byTimer
  canceled.1.completeLater id canceled.2

/-- `m_create_operations.erase`. -/
def erase (s : TcpPipeServerEnv) (id : Nat) : TcpPipeServerEnv :=
  { s with createOperations := s.createOperations.eraseP fun data => data.id = id }

/-- The new operation with its timer, in front of the list. -/
def emplaceFront (s : TcpPipeServerEnv) (clientId : Nat) (timed : Bool) : TcpPipeServerEnv :=
  let data : CreateOperationData :=
    { id := s.nextId
      clientId := clientId
      timerId := if timed then some s.timer.nextId else none }
  { s with
    nextId := s.nextId + 1
    timer := if timed then s.timer.start s.nextId else s.timer
    operations := s.operations ++ [{}]
    createOperations := s.createOperations ++ [data] }

def createPipe (s : TcpPipeServerEnv) (clientId : Nat) (timed : Bool) : TcpPipeServerEnv :=
  let added := s.emplaceFront clientId timed
  if added.createOperations.length = 1 then added.start s.nextId else added

def onTimeout (s : TcpPipeServerEnv) (id : Nat) : TcpPipeServerEnv :=
  match s.createOperations.find? fun data => data.id = id with
  | none => s
  | some _ =>
      let canceled := s.cancelOperation id true
      if s.createOperations.head?.map CreateOperationData.id = some id then canceled
      else canceled.erase id

def onCompleted (s : TcpPipeServerEnv) (id : Nat) : TcpPipeServerEnv :=
  match s.createOperations with
  | [] => s
  | back :: rest =>
      if back.id = id then
        let popped := { s with
          timer := s.timer.cancelOptional back.timerId
          createOperations := rest }
        match rest with
        | [] => popped
        | next :: _ => popped.start next.id
      else s

/-- The operation is one of those a cancellation asks for. -/
def wanted (clientId : Option Nat) (data : CreateOperationData) : Bool :=
  clientId.all fun client => data.clientId == client

/-- One operation that a cancellation finds in the list. -/
def cancelListed (s : TcpPipeServerEnv) (data : CreateOperationData) : TcpPipeServerEnv :=
  { s with timer := s.timer.cancelOptional data.timerId }.cancelOperation data.id false

/-- The loop goes from the front to the back and erases what it cancels; the back stays listed. -/
def cancelPendingServerEndpoints (s : TcpPipeServerEnv) (clientId : Option Nat) : TcpPipeServerEnv :=
  match s.createOperations with
  | [] => s
  | back :: rest =>
      let looped := (rest.reverse.filter (wanted clientId)).foldl
        (fun s data => (s.cancelListed data).erase data.id) s
      if wanted clientId back then looped.cancelListed back else looped

/-- What the accept handler makes of its operation and of what it is given. -/
def acceptResult (op : CreateOperation) (outcome : AcceptOutcome) (optionFails : Bool) :
    PipeWaitRes × Option Nat :=
  if op.wasCanceled then (if op.canceledByTimer then .timeout else .canceled, none)
  else match outcome with
    | .error | .aborted => (.failed, none)
    | .socket number => if optionFails then (.failed, none) else (.success, some number)

def step (s : TcpPipeServerEnv) : Event → Option TcpPipeServerEnv
  | .createPipe clientId timed => some (s.createPipe clientId timed)
  | .acceptCompletes index good =>
      match s.accepts[index]? with
      | some ⟨opId, none⟩ =>
          let outcome := if good then .socket s.nextSocket else .error
          some { s with
            nextSocket := if good then s.nextSocket + 1 else s.nextSocket
            accepts := s.accepts.set index ⟨opId, some outcome⟩ }
      | _ => none
  | .acceptHandler index optionFails =>
      match s.accepts[index]? with
      | some ⟨opId, some outcome⟩ =>
          let decided := acceptResult (s.operation opId) outcome optionFails
          some { s with
            accepts := s.accepts.eraseIdx index
            completing := s.completing ++ [⟨opId, decided.1, decided.2⟩]
            granted := s.granted ++ decided.2.toList.map fun number => (opId, number) }
      | _ => none
  | .complete index =>
      match s.completing[index]? with
      | none => none
      | some completion => some { s with
          completing := s.completing.eraseIdx index
          completions := s.completions ++ [completion]
          continuations := s.continuations ++ [completion.id] }
  | .onCompleted index =>
      match s.continuations[index]? with
      | none => none
      | some id => some ({ s with continuations := s.continuations.eraseIdx index }.onCompleted id)
  | .timerExpires timerId =>
      (s.timer.expire timerId).map fun timer => { s with timer := timer }
  | .timerHandler timerId =>
      (s.timer.handle timerId).map fun handled =>
        match handled.2 with
        | none => { s with timer := handled.1 }
        | some id => { s with timer := handled.1 }.onTimeout id
  | .cancelPendingServerEndpoints clientId => some (s.cancelPendingServerEndpoints clientId)

def machine : Lib.Machine TcpPipeServerEnv Event where
  step := step

end TcpPipeServerEnv

end CommonRpc
