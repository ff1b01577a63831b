/-
Module: CommonRpc.Proofs.TcpPipeServerSockets
Purpose: Which operations of `tcp_pipe_server_env` get the accepted sockets. Only the accept handler grants a
  socket; every other step keeps the grants and at most decides operations without an endpoint (`Keeps`).
  Hence sockets are granted in the order of the calls, no operation that is still waiting is passed over
  (`InOrder`), and an operation that is cancelled before it is decided is granted none (`Spares`) and ends with
  the reason (`Doomed`).
Trusted boundary: none
-/
import CommonRpc.Proofs.TcpPipeServerEnv

namespace CommonRpc

/-- Whether the timer cancelled the operation, if it is cancelled. -/
def CreateOperation.canceledBy (op : CreateOperation) : Option Bool :=
  if op.wasCanceled then some op.canceledByTimer else none

namespace TcpPipeServerEnv

open Lib

variable {s t u : TcpPipeServerEnv}

/-! ### Steps that grant no socket -/

/-- The step grants no socket, decides the results `added` and takes back no cancellation. -/
structure Keeps (added : List WaitCompletion) (s t : TcpPipeServerEnv) : Prop where
  granted : t.granted = s.granted
  nextSocket : t.nextSocket = s.nextSocket
  sockets : ∀ accept ∈ t.accepts, ∀ number, accept.completion = some (.socket number) →
    ∃ before ∈ s.accepts, before.completion = some (.socket number)
  decided : t.records.Perm (added ++ s.records)
  canceled : ∀ id byTimer, (s.operation id).canceledBy = some byTimer → (t.operation id).canceledBy = some byTimer

/-- A step that leaves the accepts and the results alone. -/
theorem Keeps.quiet (granted : t.granted = s.granted) (nextSocket : t.nextSocket = s.nextSocket)
    (accepts : t.accepts = s.accepts) (decided : t.records.Perm s.records)
    (canceled : ∀ id byTimer, (s.operation id).canceledBy = some byTimer →
      (t.operation id).canceledBy = some byTimer) :
    Keeps [] s t :=
  ⟨granted, nextSocket, fun accept member _ socket => ⟨accept, accepts ▸ member, socket⟩, decided, canceled⟩

theorem start_keeps (id : Nat) : Keeps [] s (s.start id) := by
  refine ⟨rfl, rfl, ?_, List.Perm.refl _, ?_⟩
  · intro accept member number socket
    rcases List.mem_append.mp member with old | new
    · exact ⟨accept, old, socket⟩
    · rw [List.mem_singleton.mp new] at socket
      cases socket
  · intro other byTimer before
    by_cases mine : id = other
    · subst mine
      by_cases inRange : id < s.operations.length
      · have same := operation_modify_self (f := fun op => { op with wasStarted := true }) inRange
        rw [operation, start, same]
        exact before
      · rw [operation, List.getD_eq_getElem?_getD, List.getElem?_eq_none (by omega)] at before
        cases before
    · rw [operation, start, operation_modify_other mine]
      exact before

theorem Keeps.trans {added more : List WaitCompletion} (first : Keeps added s t) (second : Keeps more t u) :
    Keeps (more ++ added) s u := by
  refine ⟨second.granted.trans first.granted, second.nextSocket.trans first.nextSocket, ?_, ?_, ?_⟩
  · intro accept member number socket
    obtain ⟨middle, inMiddle, still⟩ := second.sockets accept member number socket
    exact first.sockets middle inMiddle number still
  · rw [List.append_assoc]
    exact second.decided.trans (first.decided.append_left more)
  · intro id byTimer before
    exact second.canceled id byTimer (first.canceled id byTimer before)

theorem createPipe_keeps (inv : Disciplined s) (clientId : Nat) (timed : Bool) :
    Keeps [] s (s.createPipe clientId timed) := by
  have added : Keeps [] s (s.emplaceFront clientId timed) := by
    apply Keeps.quiet
    case canceled =>
      intro id byTimer before
      rwa [operation_emplaceFront inv.count]
    all_goals rfl
  simp only [createPipe]
  split
  · exact added.trans (start_keeps _)
  · exact added

theorem onCompleted_keeps (id : Nat) : Keeps [] s (s.onCompleted id) := by
  have popped (rest : List CreateOperationData) (timer : MultipleTimer Nat) :
      Keeps [] s { s with timer := timer, createOperations := rest } :=
    Keeps.quiet rfl rfl rfl (List.Perm.refl _) fun _ _ before => before
  have same : Keeps [] s s := Keeps.quiet rfl rfl rfl (List.Perm.refl _) fun _ _ before => before
  simp only [onCompleted]
  split
  · exact same
  · split
    · split
      · exact popped [] _
      · exact (popped _ _).trans (start_keeps _)
    · exact same

/-- Cancelling an operation that is not cancelled leaves the other reasons as they are. -/
theorem canceledBy_markCanceled {id other : Nat} {byTimer reason : Bool}
    (survives : (s.operation id).wasCanceled = false) (before : (s.operation other).canceledBy = some reason) :
    ((s.markCanceled id byTimer).operation other).canceledBy = some reason := by
  by_cases mine : id = other
  · subst mine
    simp [CreateOperation.canceledBy, survives] at before
  · rwa [operation_markCanceled_other byTimer mine]

/-- Cancelling a started operation decides nothing. -/
theorem cancelOperation_started_keeps {id : Nat} (byTimer : Bool) (started : (s.operation id).wasStarted = true) :
    Keeps [] s (s.cancelOperation id byTimer) := by
  cases canceled : (s.operation id).wasCanceled with
  | true =>
      simp only [cancelOperation, cancel, canceled, if_true, completeLater]
      exact Keeps.quiet rfl rfl rfl (List.Perm.refl _) fun _ _ before => before
  | false =>
      simp only [cancelOperation, cancel, canceled, started, Bool.false_eq_true, if_false, if_true,
        completeLater]
      refine ⟨rfl, rfl, ?_, List.Perm.refl _, ?_⟩
      · intro accept member number socket
        obtain ⟨before, inAccepts, rfl⟩ := List.mem_map.mp member
        split at socket
        · cases socket
        · exact ⟨before, inAccepts, socket⟩
      · intro other reason before
        exact canceledBy_markCanceled canceled before

/-- Cancelling an operation that was not started decides it, without an endpoint. -/
theorem cancelOperation_idle_keeps {id : Nat} (byTimer : Bool) (idle : s.operation id = {}) :
    Keeps [⟨id, if byTimer then .timeout else .canceled, none⟩] s ((s.cancelOperation id byTimer).erase id) := by
  rw [cancelOperation_idle byTimer idle]
  refine ⟨rfl, rfl, fun accept member _ socket => ⟨accept, member, socket⟩, ?_, ?_⟩
  · simp only [records, erase, markCanceled, List.append_assoc, List.singleton_append]
    exact List.perm_middle
  · intro other reason before
    exact canceledBy_markCanceled (by simp [idle]) before

/-! ### What a step does to the sockets -/

theorem mem_settled_iff {id : Nat} : id ∈ s.settled ↔ ∃ done ∈ s.records, done.id = id := by
  simp only [settled, records, List.mem_map]

theorem Keeps.settled {added : List WaitCompletion} (keeps : Keeps added s t) {id : Nat}
    (before : id ∈ s.settled) : id ∈ t.settled := by
  obtain ⟨done, member, own⟩ := mem_settled_iff.mp before
  exact mem_settled_iff.mpr ⟨done, keeps.decided.mem_iff.mpr (List.mem_append_right _ member), own⟩

/-- The step grants no socket; the operations it decides were open and get no endpoint, and those that were
    cancelled get the reason for a result. -/
def Settles (s t : TcpPipeServerEnv) : Prop :=
  ∃ added, Keeps added s t ∧ ∀ done ∈ added,
    done.endpoint = none ∧ done.result ≠ .success ∧ done.id ∉ s.settled ∧
      ∀ byTimer, (s.operation done.id).canceledBy = some byTimer →
        done.result = if byTimer then .timeout else .canceled

theorem Keeps.settles (keeps : Keeps [] s t) : Settles s t :=
  ⟨[], keeps, by simp⟩

theorem Settles.trans (first : Settles s t) (second : Settles t u) : Settles s u := by
  obtain ⟨added, keeps, plain⟩ := first
  obtain ⟨more, keepsMore, plainMore⟩ := second
  refine ⟨more ++ added, keeps.trans keepsMore, ?_⟩
  intro done member
  rcases List.mem_append.mp member with late | early
  · obtain ⟨noEndpoint, failed, wasOpen, reason⟩ := plainMore done late
    exact ⟨noEndpoint, failed, fun before => wasOpen (keeps.settled before),
      fun byTimer before => reason byTimer (keeps.canceled done.id byTimer before)⟩
  · exact plain done early

theorem Settles.timer (s : TcpPipeServerEnv) (timer : MultipleTimer Nat) : Settles s { s with timer := timer } :=
  have keeps : Keeps [] s { s with timer := timer } :=
    Keeps.quiet rfl rfl rfl (List.Perm.refl _) fun _ _ before => before
  keeps.settles

/-- A cancellation of a queued operation decides an open operation. -/
theorem cancelOperation_queued_settles (inv : Disciplined s) {id : Nat} (byTimer : Bool)
    (queued : id ∈ s.listed.tail) : Settles s ((s.cancelOperation id byTimer).erase id) := by
  refine ⟨_, cancelOperation_idle_keeps byTimer (inv.queuedIdle id queued), ?_⟩
  intro done member
  rw [List.mem_singleton.mp member]
  refine ⟨rfl, ?_, inv.queuedOpen id queued, ?_⟩
  · cases byTimer <;> simp
  · simp [inv.queuedIdle id queued, CreateOperation.canceledBy]

theorem cancelOperation_back_settles (inv : Disciplined s) {id : Nat} (byTimer : Bool)
    (isBack : s.listed.head? = some id) : Settles s (s.cancelOperation id byTimer) :=
  (cancelOperation_started_keeps byTimer (inv.backStarted id isBack)).settles

/-- What the accept handler makes of its operation: a socket only if the operation was not cancelled, and the
    reason if it was. -/
theorem acceptResult_cases (op : CreateOperation) (outcome : AcceptOutcome) (optionFails : Bool) :
    (∃ result, result ≠ .success ∧
      (∀ byTimer, op.canceledBy = some byTimer → result = if byTimer then .timeout else .canceled) ∧
      acceptResult op outcome optionFails = (result, none)) ∨
      ∃ number, outcome = .socket number ∧ op.wasCanceled = false ∧
        acceptResult op outcome optionFails = (.success, some number) := by
  cases canceled : op.wasCanceled with
  | true =>
      refine .inl ⟨if op.canceledByTimer then .timeout else .canceled, ?_, ?_, by simp [acceptResult, canceled]⟩
      · cases op.canceledByTimer <;> decide
      · intro byTimer reason
        simp only [CreateOperation.canceledBy, canceled, if_true, Option.some.injEq] at reason
        rw [reason]
  | false =>
      have noReason (byTimer : Bool) :
          op.canceledBy = some byTimer → PipeWaitRes.failed = if byTimer then .timeout else .canceled := by
        simp [CreateOperation.canceledBy, canceled]
      cases outcome with
      | error => exact .inl ⟨.failed, by decide, noReason, by simp [acceptResult, canceled]⟩
      | aborted => exact .inl ⟨.failed, by decide, noReason, by simp [acceptResult, canceled]⟩
      | socket number =>
          cases optionFails with
          | true => exact .inl ⟨.failed, by decide, noReason, by simp [acceptResult, canceled]⟩
          | false => exact .inr ⟨number, rfl, rfl, by simp [acceptResult, canceled]⟩

/-- The accept handler decides its operation without an endpoint. -/
theorem acceptHandler_keeps {index opId : Nat} (result : PipeWaitRes) :
    Keeps [⟨opId, result, none⟩] s { s with
      accepts := s.accepts.eraseIdx index
      completing := s.completing ++ [⟨opId, result, none⟩] } := by
  refine ⟨rfl, rfl, ?_, ?_, fun _ _ before => before⟩
  · intro accept member number socket
    have sub : s.accepts.eraseIdx index ⊆ s.accepts := List.eraseIdx_subset
    exact ⟨accept, sub member, socket⟩
  · simp only [records, List.append_assoc, List.singleton_append]
    exact List.perm_middle

/-- While the accept of the back is outstanding, exactly the earlier calls are decided. -/
theorem Disciplined.settled_before (inv : Disciplined s) {index : Nat} {accept : Accept}
    (found : s.accepts[index]? = some accept) :
    accept.opId ∉ s.settled ∧ ∀ id < accept.opId, id ∈ s.settled := by
  obtain ⟨_, accepts, rest, listed⟩ := inv.only_accept found
  have once := inv.once
  simp only [accepting, accepts, List.map_cons, List.map_nil, List.singleton_append, List.nodup_cons] at once
  refine ⟨once.1, ?_⟩
  intro id earlier
  have below := inv.below accept.opId (by simp [listed])
  rcases inv.accounted id (by omega) with waits | done
  · rw [listed] at waits
    rcases List.mem_cons.mp waits with same | later
    · omega
    · have := inv.head_lt listed id later
      omega
  · exact done

/-- What a step does to the sockets: nothing, take the next one, or grant one to an operation that is not
    cancelled. -/
inductive Move (s : TcpPipeServerEnv) : TcpPipeServerEnv → Prop where
  | settles {t : TcpPipeServerEnv} : Settles s t → Move s t
  | accepts (index opId : Nat) (good : Bool) : Move s { s with
      nextSocket := if good then s.nextSocket + 1 else s.nextSocket
      accepts := s.accepts.set index ⟨opId, some (if good then .socket s.nextSocket else .error)⟩ }
  | grants {index opId number : Nat} : s.accepts[index]? = some ⟨opId, some (.socket number)⟩ →
      (s.operation opId).wasCanceled = false →
      Move s { s with
        accepts := s.accepts.eraseIdx index
        completing := s.completing ++ [⟨opId, .success, some number⟩]
        granted := s.granted ++ [(opId, number)] }

theorem acceptHandler_move (inv : Disciplined s) {index opId : Nat} {outcome : AcceptOutcome}
    (optionFails : Bool) (found : s.accepts[index]? = some ⟨opId, some outcome⟩) :
    Move s { s with
      accepts := s.accepts.eraseIdx index
      completing := s.completing ++ [⟨opId, (acceptResult (s.operation opId) outcome optionFails).1,
        (acceptResult (s.operation opId) outcome optionFails).2⟩]
      granted := s.granted ++ (acceptResult (s.operation opId) outcome optionFails).2.toList.map
        fun number => (opId, number) } := by
  rcases acceptResult_cases (s.operation opId) outcome optionFails with
    ⟨result, failed, reason, decided⟩ | ⟨number, rfl, survives, decided⟩
  · simp only [decided, Option.toList_none, List.map_nil, List.append_nil]
    refine .settles ⟨_, acceptHandler_keeps result, ?_⟩
    intro done member
    rw [List.mem_singleton.mp member]
    exact ⟨rfl, failed, (inv.settled_before found).1, reason⟩
  · simp only [decided, Option.toList_some, List.map_cons, List.map_nil]
    exact .grants found survives

theorem step_move {e : Event} (inv : Disciplined s) (stepped : s.step e = some t) : Move s t := by
  cases e with
  | createPipe clientId timed =>
      cases stepped
      exact .settles (createPipe_keeps inv clientId timed).settles
  | acceptCompletes index good =>
      simp only [step] at stepped
      split at stepped
      · rename_i opId found
        cases stepped
        exact .accepts index opId good
      · cases stepped
  | acceptHandler index optionFails =>
      simp only [step] at stepped
      split at stepped
      · rename_i opId outcome found
        cases stepped
        exact acceptHandler_move inv optionFails found
      · cases stepped
  | complete index =>
      simp only [step] at stepped
      split at stepped
      · cases stepped
      · rename_i completion found
        cases stepped
        have keeps : Keeps [] s { s with
            completing := s.completing.eraseIdx index
            completions := s.completions ++ [completion]
            continuations := s.continuations ++ [completion.id] } :=
          Keeps.quiet rfl rfl rfl (complete_records found) fun _ _ before => before
        exact .settles keeps.settles
  | onCompleted index =>
      simp only [step] at stepped
      split at stepped
      · cases stepped
      · rename_i id found
        cases stepped
        have forgotten : Keeps [] s { s with continuations := s.continuations.eraseIdx index } :=
          Keeps.quiet rfl rfl rfl (List.Perm.refl _) fun _ _ before => before
        exact .settles (forgotten.trans (onCompleted_keeps id)).settles
  | timerExpires timerId =>
      obtain ⟨timer, _, rfl⟩ := Option.map_eq_some_iff.mp stepped
      exact .settles (Settles.timer s timer)
  | timerHandler timerId =>
      obtain ⟨⟨timer, callback⟩, _, rfl⟩ := Option.map_eq_some_iff.mp stepped
      have popped := Settles.timer s timer
      have keeps := inv.timer timer
      cases callback with
      | none => exact .settles popped
      | some id =>
          apply Move.settles
          apply onTimeout_rule (P := Settles s) id popped
          · intro queued
            exact popped.trans (cancelOperation_queued_settles keeps true queued)
          · intro isBack
            exact popped.trans (cancelOperation_back_settles keeps true isBack)
  | cancelPendingServerEndpoints clientId =>
      cases stepped
      apply Move.settles
      apply (cancelPending_rule (P := fun _ => Settles s) inv clientId ?_ ?_ ?_).2
      · exact Settles.timer s s.timer
      · intro u data _ keeps before queued
        exact (before.trans (Settles.timer u _)).trans
          (cancelOperation_queued_settles (keeps.timer _) false queued)
      · intro u data keeps before isBack
        exact (before.trans (Settles.timer u _)).trans
          (cancelOperation_back_settles (keeps.timer _) false isBack)

/-! ### Sockets in call order -/

/-- How the accepted sockets were given to the operations. -/
structure InOrder (s : TcpPipeServerEnv) : Prop where
  /-- Earlier sockets go to earlier calls. -/
  callOrder : s.granted.Pairwise fun first second => first.1 < second.1 ∧ first.2 < second.2
  accepted : ∀ pair ∈ s.granted, pair.2 < s.nextSocket
  queued : ∀ accept ∈ s.accepts, ∀ number, accept.completion = some (.socket number) →
    number < s.nextSocket ∧ ∀ pair ∈ s.granted, pair.2 < number
  /-- When a call gets a socket, every earlier call is decided. -/
  noneSkipped : ∀ pair ∈ s.granted, ∀ id ≤ pair.1, id ∈ s.settled
  /-- The endpoints are those of the granted sockets. -/
  endpoints : ∀ done ∈ s.records, ∀ number, done.endpoint = some number ↔ (done.id, number) ∈ s.granted
  successes : ∀ done ∈ s.records, done.result = .success ↔ done.endpoint.isSome = true

theorem inOrder_init : InOrder {} := by
  constructor <;> simp [records]

/-- A step that grants nothing keeps the order. -/
theorem InOrder.keep (inv : InOrder s) (settles : Settles s t) : InOrder t := by
  obtain ⟨added, keeps, plain⟩ := settles
  have granted := keeps.granted
  have nextSocket := keeps.nextSocket
  have decided := keeps.decided
  refine ⟨granted ▸ inv.callOrder, ?_, ?_, ?_, ?_, ?_⟩
  · rw [granted, nextSocket]
    exact inv.accepted
  · rw [granted, nextSocket]
    intro accept member number socket
    obtain ⟨before, inBefore, same⟩ := keeps.sockets accept member number socket
    exact inv.queued before inBefore number same
  · rw [granted]
    intro pair member id earlier
    exact keeps.settled (inv.noneSkipped pair member id earlier)
  · intro done member number
    rw [granted]
    rcases List.mem_append.mp (decided.mem_iff.mp member) with new | old
    · obtain ⟨noEndpoint, _, wasOpen, _⟩ := plain done new
      rw [noEndpoint]
      constructor
      · intro some
        cases some
      · intro given
        exact absurd (inv.noneSkipped _ given done.id (Nat.le_refl _)) wasOpen
    · exact inv.endpoints done old number
  · intro done member
    rcases List.mem_append.mp (decided.mem_iff.mp member) with new | old
    · obtain ⟨noEndpoint, failed, _⟩ := plain done new
      simp [noEndpoint, failed]
    · exact inv.successes done old

/-- The acceptor completes an accept with the next socket, or with an error. -/
theorem acceptCompletes_inOrder (inv : InOrder s) {index opId : Nat} (good : Bool) :
    InOrder { s with
      nextSocket := if good then s.nextSocket + 1 else s.nextSocket
      accepts := s.accepts.set index ⟨opId, some (if good then .socket s.nextSocket else .error)⟩ } := by
  have grown : s.nextSocket ≤ if good then s.nextSocket + 1 else s.nextSocket := by
    cases good <;> simp
  refine { inv with accepted := ?_, queued := ?_ }
  · intro pair member
    exact Nat.lt_of_lt_of_le (inv.accepted pair member) grown
  · intro accept member number socket
    rcases List.mem_or_eq_of_mem_set member with old | new
    · obtain ⟨below, later⟩ := inv.queued accept old number socket
      exact ⟨Nat.lt_of_lt_of_le below grown, later⟩
    · rw [new] at socket
      cases good with
      | false => cases socket
      | true =>
          cases socket
          exact ⟨Nat.lt_succ_self _, inv.accepted⟩

/-- The socket that the accept of the back was given goes to the back. -/
theorem grant_inOrder (disciplined : Disciplined s) (inv : InOrder s) {index opId number : Nat}
    (found : s.accepts[index]? = some ⟨opId, some (.socket number)⟩) :
    InOrder { s with
      accepts := s.accepts.eraseIdx index
      completing := s.completing ++ [⟨opId, .success, some number⟩]
      granted := s.granted ++ [(opId, number)] } := by
  obtain ⟨wasOpen, earlierDone⟩ := disciplined.settled_before found
  obtain ⟨rfl, accepts, _⟩ := disciplined.only_accept found
  obtain ⟨numberBelow, numberLater⟩ := inv.queued _ (List.mem_of_getElem? found) number rfl
  have earlierGrants : ∀ pair ∈ s.granted, pair.1 < opId := by
    -- a granted call at or after the back would leave the back decided
    intro pair member
    by_contra notBefore
    exact wasOpen (inv.noneSkipped pair member opId (by omega))
  let won : WaitCompletion := ⟨opId, .success, some number⟩
  have decided : (s.completing ++ [won] ++ s.completions).Perm (won :: s.records) := by
    simp only [records, List.append_assoc, List.singleton_append]
    exact List.perm_middle
  have settled {id : Nat} (before : id ∈ s.settled) :
      id ∈ (s.completing ++ [won] ++ s.completions).map WaitCompletion.id := by
    obtain ⟨done, member, rfl⟩ := mem_settled_iff.mp before
    exact List.mem_map_of_mem (decided.mem_iff.mpr (List.mem_cons_of_mem _ member))
  constructor
  case callOrder =>
    simp only [List.pairwise_append, List.mem_singleton]
    refine ⟨inv.callOrder, List.pairwise_singleton _ _, ?_⟩
    rintro pair member _ rfl
    exact ⟨earlierGrants pair member, numberLater pair member⟩
  case accepted =>
    intro pair member
    rcases List.mem_append.mp member with old | new
    · exact inv.accepted pair old
    · rw [List.mem_singleton.mp new]
      exact numberBelow
  case queued =>
    intro accept member
    simp [accepts] at member
  case noneSkipped =>
    intro pair member id earlier
    rcases List.mem_append.mp member with old | new
    · exact settled (inv.noneSkipped pair old id earlier)
    · rw [List.mem_singleton.mp new] at earlier
      rcases Nat.lt_or_eq_of_le earlier with before | same
      · exact settled (earlierDone id before)
      · rw [same]
        exact List.mem_map_of_mem (decided.mem_iff.mpr List.mem_cons_self)
  case endpoints =>
    intro done member other
    rcases List.mem_cons.mp (decided.mem_iff.mp member) with rfl | old
    · have notYet : (opId, other) ∉ s.granted := fun given => Nat.lt_irrefl _ (earlierGrants _ given)
      simp [won, notYet, eq_comm]
    · have apart : done.id ≠ opId := fun same => wasOpen (mem_settled_iff.mpr ⟨done, old, same⟩)
      simp [inv.endpoints done old other, apart]
  case successes =>
    intro done member
    rcases List.mem_cons.mp (decided.mem_iff.mp member) with rfl | old
    · simp [won]
    · exact inv.successes done old

theorem step_inOrder {e : Event} (disciplined : Disciplined s) (inv : InOrder s) (stepped : s.step e = some t) :
    InOrder t := by
  cases step_move disciplined stepped with
  | settles settles => exact inv.keep settles
  | accepts index opId good => exact acceptCompletes_inOrder inv good
  | grants found survives => exact grant_inOrder disciplined inv found

theorem run_inOrder {es : List Event} (ran : machine.run {} es = some s) : InOrder s := by
  have start : Disciplined {} ∧ InOrder {} := ⟨disciplined_init, inOrder_init⟩
  apply (Machine.run_invariant (P := fun s => Disciplined s ∧ InOrder s) ?_ start ran).2
  intro a e b inv stepped
  exact ⟨step_disciplined inv.1 stepped, step_inOrder inv.1 inv.2 stepped⟩

/-! ### Cancelled operations -/

/-- Since the state `s`, no operation that was cancelled there has been granted a socket. -/
def Spares (s t : TcpPipeServerEnv) : Prop :=
  ∀ id, (s.operation id).wasCanceled = true →
    (t.operation id).wasCanceled = true ∧ ∀ number, (id, number) ∈ t.granted → (id, number) ∈ s.granted

theorem Spares.refl (s : TcpPipeServerEnv) : Spares s s :=
  fun _ canceled => ⟨canceled, fun _ given => given⟩

theorem Spares.trans (first : Spares s t) (second : Spares t u) : Spares s u := by
  intro id canceled
  obtain ⟨still, early⟩ := first id canceled
  obtain ⟨atEnd, late⟩ := second id still
  exact ⟨atEnd, fun number given => early number (late number given)⟩

theorem step_spares {e : Event} (inv : Disciplined s) (stepped : s.step e = some t) : Spares s t := by
  intro id canceled
  cases step_move inv stepped with
  | settles settles =>
      obtain ⟨_, keeps, _⟩ := settles
      have reason : (s.operation id).canceledBy = some (s.operation id).canceledByTimer := by
        simp [CreateOperation.canceledBy, canceled]
      refine ⟨?_, fun number given => keeps.granted ▸ given⟩
      by_contra survives
      have kept := keeps.canceled id _ reason
      simp [CreateOperation.canceledBy, survives] at kept
  | accepts index opId good => exact ⟨canceled, fun _ given => given⟩
  | grants found survives =>
      refine ⟨canceled, ?_⟩
      intro number given
      rcases List.mem_append.mp given with old | new
      · exact old
      · cases List.mem_singleton.mp new
        rw [survives] at canceled
        cases canceled

/-! ### What ends a call -/

/-- The operation is cancelled for that reason, and if it is decided, then with it and without an endpoint. -/
structure Doomed (byTimer : Bool) (s : TcpPipeServerEnv) (id : Nat) : Prop where
  canceled : (s.operation id).canceledBy = some byTimer
  decided : ∀ done ∈ s.records, done.id = id →
    done.endpoint = none ∧ done.result = if byTimer then .timeout else .canceled

section Doomed

variable {id : Nat} {byTimer : Bool}

theorem Doomed.keep (doomed : Doomed byTimer s id) (settles : Settles s t) : Doomed byTimer t id := by
  obtain ⟨added, keeps, plain⟩ := settles
  refine ⟨keeps.canceled id byTimer doomed.canceled, ?_⟩
  intro done member own
  rcases List.mem_append.mp (keeps.decided.mem_iff.mp member) with new | old
  · obtain ⟨noEndpoint, _, _, reason⟩ := plain done new
    exact ⟨noEndpoint, reason byTimer (own ▸ doomed.canceled)⟩
  · exact doomed.decided done old own

theorem step_doomed {e : Event} (inv : Disciplined s) (stepped : s.step e = some t)
    (doomed : Doomed byTimer s id) : Doomed byTimer t id := by
  cases step_move inv stepped with
  | settles settles => exact doomed.keep settles
  | accepts index opId good => exact ⟨doomed.canceled, doomed.decided⟩
  | grants found survives =>
      refine ⟨doomed.canceled, ?_⟩
      intro done member own
      simp only [records, List.mem_append, List.mem_singleton] at member
      rcases member with (old | rfl) | old
      · exact doomed.decided done (List.mem_append_left _ old) own
      · have canceled := doomed.canceled
        rw [← own, CreateOperation.canceledBy, survives] at canceled
        cases canceled
      · exact doomed.decided done (List.mem_append_right _ old) own

/-- Cancelling an undecided operation; if it was cancelled before, the first reason counts. -/
theorem cancelOperation_doomed (byTimer : Bool) (below : id < s.operations.length) (undecided : id ∉ s.settled) :
    Doomed ((s.operation id).canceledBy.getD byTimer) (s.cancelOperation id byTimer) id := by
  have none : ∀ done ∈ s.records, done.id ≠ id :=
    fun done member own => undecided (mem_settled_iff.mpr ⟨done, member, own⟩)
  cases canceled : (s.operation id).wasCanceled with
  | true =>
      have reason : (s.operation id).canceledBy = some (s.operation id).canceledByTimer := by
        simp [CreateOperation.canceledBy, canceled]
      simp only [cancelOperation, cancel, canceled, if_true, completeLater, reason, Option.getD_some]
      exact ⟨reason, fun done member own => absurd own (none done member)⟩
  | false =>
      have marked : ((s.markCanceled id byTimer).operation id).canceledBy = some byTimer := by
        rw [operation_markCanceled_self byTimer below]
        rfl
      have reason : (s.operation id).canceledBy = Option.none := by simp [CreateOperation.canceledBy, canceled]
      rw [reason, Option.getD_none]
      cases started : (s.operation id).wasStarted with
      | true =>
          simp only [cancelOperation, cancel, canceled, started, Bool.false_eq_true, if_false, if_true,
            completeLater]
          exact ⟨marked, fun done member own => absurd own (none done member)⟩
      | false =>
          simp only [cancelOperation, cancel, canceled, started, Bool.false_eq_true, if_false, completeLater]
          refine ⟨marked, ?_⟩
          intro done member own
          simp only [records, markCanceled, List.mem_append, List.mem_singleton] at member
          rcases member with (old | rfl) | old
          · exact absurd own (none done (List.mem_append_left _ old))
          · exact ⟨rfl, rfl⟩
          · exact absurd own (none done (List.mem_append_right _ old))

theorem onTimeout_doomed (inv : Disciplined s) (listed : id ∈ s.listed) (undecided : id ∉ s.settled) :
    Doomed ((s.operation id).canceledBy.getD true) (s.onTimeout id) id := by
  have doomed := cancelOperation_doomed true (inv.count.symm ▸ inv.below id listed) undecided
  simp only [onTimeout]
  split
  · rename_i absent
    obtain ⟨data, member, own⟩ := List.mem_map.mp listed
    exact absurd own (by simpa using List.find?_eq_none.mp absent data member)
  · split
    · exact doomed
    · exact ⟨doomed.canceled, doomed.decided⟩

/-- The operation is still to be cancelled, by a cancellation for which the list of operations is left. -/
structure Condemned (reason : Option Bool) (id : Nat) (left : List CreateOperationData) (s : TcpPipeServerEnv) :
    Prop where
  left : ∃ data ∈ left, data.id = id
  undecided : id ∉ s.settled
  same : (s.operation id).canceledBy = reason

theorem Condemned.cancelListed {reason : Option Bool} {data : CreateOperationData}
    {more : List CreateOperationData} (condemned : Condemned reason id (data :: more) s) (inv : Disciplined s)
    (listed : data.id ∈ s.listed) (own : data.id = id) :
    Doomed (reason.getD false) (s.cancelListed data) id := by
  subst own
  have below : data.id < s.operations.length := inv.count.symm ▸ inv.below data.id listed
  have doomed := cancelOperation_doomed (s := { s with timer := s.timer.cancelOptional data.timerId }) false
    below condemned.undecided
  rw [← condemned.same]
  exact doomed

/-- A round that cancels another operation leaves this one as it is. -/
theorem Condemned.other {reason : Option Bool} {data : CreateOperationData} {more : List CreateOperationData}
    (condemned : Condemned reason id (data :: more) s) (inv : Disciplined s)
    (queued : data.id ∈ s.listed.tail) (apart : data.id ≠ id) :
    Condemned reason id more ((s.cancelListed data).erase data.id) := by
  have idle : ({ s with timer := s.timer.cancelOptional data.timerId } : TcpPipeServerEnv).operation data.id = {} :=
    inv.queuedIdle data.id queued
  have keeps := cancelOperation_idle_keeps false idle
  refine ⟨?_, ?_, ?_⟩
  · obtain ⟨found, member, own⟩ := condemned.left
    rcases List.mem_cons.mp member with rfl | later
    · exact absurd own apart
    · exact ⟨found, later, own⟩
  · intro settled
    obtain ⟨done, member, own⟩ := mem_settled_iff.mp settled
    rcases List.mem_append.mp (keeps.decided.mem_iff.mp member) with new | old
    · rw [List.mem_singleton.mp new] at own
      exact apart own
    · exact condemned.undecided (mem_settled_iff.mpr ⟨done, old, own⟩)
  · rw [← condemned.same, TcpPipeServerEnv.cancelListed, cancelOperation_idle false idle]
    exact congrArg CreateOperation.canceledBy (operation_markCanceled_other false apart)

theorem cancelPending_doomed (inv : Disciplined s) {clientId : Option Nat} {data : CreateOperationData}
    (listed : data ∈ s.createOperations) (isWanted : wanted clientId data = true)
    (undecided : data.id ∉ s.settled) :
    Doomed ((s.operation data.id).canceledBy.getD false) (s.cancelPendingServerEndpoints clientId) data.id := by
  have ended := (cancelPending_rule (P := fun left u =>
    Condemned (s.operation data.id).canceledBy data.id left u ∨
      Doomed ((s.operation data.id).canceledBy.getD false) u data.id) inv clientId ?_ ?_ ?_).2
  · rcases ended with condemned | doomed
    · obtain ⟨_, member, _⟩ := condemned.left
      cases member
    · exact doomed
  · exact .inl ⟨⟨data, List.mem_filter.mpr ⟨List.mem_reverse.mpr listed, isWanted⟩, rfl⟩, undecided, rfl⟩
  · intro u next more keeps before queued
    rcases before with condemned | doomed
    · by_cases own : next.id = data.id
      · have doomed := condemned.cancelListed keeps (List.mem_of_mem_tail queued) own
        exact .inr ⟨doomed.canceled, doomed.decided⟩
      · exact .inl (condemned.other keeps queued own)
    · exact .inr (doomed.keep ((Settles.timer u _).trans
        (cancelOperation_queued_settles (keeps.timer _) false queued)))
  · intro u next keeps before isBack
    rcases before with condemned | doomed
    · obtain ⟨found, member, own⟩ := condemned.left
      rw [List.mem_singleton.mp member] at own
      exact .inr (condemned.cancelListed keeps (List.mem_of_mem_head? isBack) own)
    · exact .inr (doomed.keep ((Settles.timer u _).trans
        (cancelOperation_back_settles (keeps.timer _) false isBack)))

/-- The event ends the call: its timer's callback, or a cancellation that finds it in the list. -/
def Cancels (s : TcpPipeServerEnv) (byTimer : Bool) (id : Nat) : Event → Prop
  | .timerHandler timerId => byTimer = true ∧ ∃ timer, s.timer.handle timerId = some (timer, some id)
  | .cancelPendingServerEndpoints clientId =>
      byTimer = false ∧ ∃ data ∈ s.createOperations, data.id = id ∧ wanted clientId data = true
  | _ => False

theorem Cancels.doomed {e : Event} (cancels : s.Cancels byTimer id e) (inv : Disciplined s)
    (called : id < s.nextId) (undecided : id ∉ s.settled) (stepped : s.step e = some t) :
    Doomed ((s.operation id).canceledBy.getD byTimer) t id := by
  cases e with
  | timerHandler timerId =>
      obtain ⟨rfl, timer, handled⟩ := cancels
      simp only [step, handled, Option.map_some, Option.some.injEq] at stepped
      subst stepped
      exact onTimeout_doomed (inv.timer timer) ((inv.accounted id called).resolve_right undecided) undecided
  | cancelPendingServerEndpoints clientId =>
      obtain ⟨rfl, data, listed, rfl, isWanted⟩ := cancels
      cases stepped
      exact cancelPending_doomed inv listed isWanted undecided
  | _ => exact cancels.elim

/-- The call is decided, or the accept that decides it is over; it gets no endpoint, and the reason for a
    result. -/
def Ended (byTimer : Bool) (s : TcpPipeServerEnv) (id : Nat) : Prop :=
  (id ∈ (s.completing ++ s.completions).map WaitCompletion.id ∨
    ∃ accept ∈ s.accepts, accept.opId = id ∧ accept.completion.isSome = true) ∧
  ∀ done ∈ s.completing ++ s.completions, done.id = id →
    done.endpoint = none ∧ done.result = if byTimer then .timeout else .canceled

theorem Doomed.ended (doomed : Doomed byTimer s id) (inv : Disciplined s) : Ended byTimer s id := by
  refine ⟨?_, doomed.decided⟩
  by_cases undecided : id ∈ s.settled
  · exact .inl undecided
  have canceled : (s.operation id).wasCanceled = true := by
    by_contra survives
    have reason := doomed.canceled
    simp [CreateOperation.canceledBy, survives] at reason
  have called : id < s.nextId := by
    by_contra beyond
    rw [operation, List.getD_eq_getElem?_getD, List.getElem?_eq_none (by rw [inv.count]; omega)] at canceled
    cases canceled
  have isBack : s.listed.head? = some id := by
    -- everything behind the back is idle
    cases listed : s.listed with
    | nil => simpa [listed, undecided] using inv.accounted id called
    | cons back rest =>
        have waits := (inv.accounted id called).resolve_right undecided
        rw [listed] at waits
        rcases List.mem_cons.mp waits with rfl | queued
        · rfl
        · have idle := inv.queuedIdle id (by simpa [listed] using queued)
          simp [idle] at canceled
  rcases inv.awake id isBack with accepts | completing | continued
  · obtain ⟨accept, member, own⟩ := List.mem_map.mp accepts
    exact .inr ⟨accept, member, own, inv.aborts accept member (own ▸ canceled)⟩
  · exact .inl (by rw [List.map_append]; exact List.mem_append_left _ completing)
  · exact .inl (by rw [List.map_append]; exact List.mem_append_right _ (inv.continued id continued))

end Doomed

/-- The queue of `create_pipe` calls in every reachable state:
    * the back of the list is started, and everything else in it is neither started nor cancelled, so that no
      assertion of `start` fails;
    * one accept is outstanding at most, and a cancellation aborts no accept but its own operation's;
    * a call is decided once, and its promise set once; the back is always waited for by an accept, by a
      result on its way to the promise, or by the continuation that will start the next operation;
    * an endpoint comes with a success only, and an operation without one when it is cancelled never gets one;
    * the callback of the timer of an undecided call, or a cancellation of it, ends that call: nothing more is
      waited for, and its result is the first reason, without an endpoint;
    * sockets go to the calls in call order, and no earlier call is still waiting when a later one gets one. -/
theorem calls_served {es : List Event} (ran : machine.run {} es = some s) :
    (∀ data rest, s.createOperations = data :: rest → (s.operation data.id).wasStarted = true ∧
      ∀ other ∈ rest, (s.operation other.id).wasStarted = false ∧ (s.operation other.id).wasCanceled = false) ∧
    s.assertionFailed = false ∧
    s.accepts.length ≤ 1 ∧ (∀ pair ∈ s.aborted, pair.1 = pair.2) ∧
    ((s.completing ++ s.completions).map WaitCompletion.id).Nodup ∧
    (∀ data ∈ s.createOperations.head?, data.id ∈ s.accepts.map Accept.opId ∨
      data.id ∈ s.completing.map WaitCompletion.id ∨ data.id ∈ s.continuations) ∧
    (∀ done ∈ s.completing ++ s.completions, (done.result = .success ↔ done.endpoint.isSome = true) ∧
      ∀ number, done.endpoint = some number ↔ (done.id, number) ∈ s.granted) ∧
    (∀ es₁ s₁, es₁ <+: es → machine.run {} es₁ = some s₁ → ∀ id, (s₁.operation id).wasCanceled = true →
      ∀ number, (id, number) ∈ s.granted → (id, number) ∈ s₁.granted) ∧
    (∀ es₁ s₁ e byTimer id, es₁ ++ [e] <+: es → machine.run {} es₁ = some s₁ → s₁.Cancels byTimer id e →
      id < s₁.nextId → id ∉ (s₁.completing ++ s₁.completions).map WaitCompletion.id →
      Ended ((s₁.operation id).canceledBy.getD byTimer) s id) ∧
    s.granted.Pairwise (fun first second => first.1 < second.1 ∧ first.2 < second.2) ∧
    ∀ pair ∈ s.granted, ∀ id ≤ pair.1, id ∈ (s.completing ++ s.completions).map WaitCompletion.id := by
  have inv := run_disciplined ran
  have order := run_inOrder ran
  refine ⟨?_, inv.noAssertion, ?_, inv.abortsOwn, (List.nodup_append.mp inv.once).2.1, ?_, ?_, ?_, ?_,
    order.callOrder, order.noneSkipped⟩
  · intro data rest list
    have listed : s.listed = data.id :: rest.map CreateOperationData.id := by simp [TcpPipeServerEnv.listed, list]
    refine ⟨inv.backStarted data.id (by simp [listed]), ?_⟩
    intro other member
    have idle := inv.queuedIdle other.id (by simpa [listed] using ⟨other, member, rfl⟩)
    simp [idle]
  · rcases inv.accepts_shape with none | ⟨accept, rest, only, _⟩
    · simp [none]
    · simp [only]
  · intro data head
    apply inv.awake
    simp only [TcpPipeServerEnv.listed, List.head?_map]
    exact Option.mem_map_of_mem _ head
  · intro done member
    exact ⟨order.successes done member, order.endpoints done member⟩
  · intro es₁ s₁ beginning ran₁ id canceled
    exact (Machine.run_since (P := Disciplined) (R := Spares) Spares.refl Spares.trans run_disciplined
      step_spares ran beginning ran₁ id canceled).2
  · intro es₁ s₁ e byTimer id beginning ran₁ cancels called undecided
    obtain ⟨s₂, stepped, ran₂⟩ := Machine.next_of_run ran beginning ran₁
    have doomed := cancels.doomed (run_disciplined ran₁) called undecided stepped
    have stays := Machine.run_since (P := Disciplined)
      (R := fun a b => ∀ id byTimer, Doomed byTimer a id → Doomed byTimer b id) (fun _ _ _ doomed => doomed)
      (fun first second id byTimer doomed => second id byTimer (first id byTimer doomed)) run_disciplined
      (fun inv stepped _ _ doomed => step_doomed inv stepped doomed) ran beginning ran₂
    exact (stays id _ doomed).ended inv

/-- The second call times out in the queue and the first one while a socket is queued for it; the third is
    cancelled, and the fourth gets the next socket. Nothing was aborted. -/
theorem calls_served_example :
    ∃ s, machine.run {} [.createPipe 1 true, .createPipe 2 true, .createPipe 1 false, .createPipe 3 false,
        .acceptCompletes 0 true, .timerExpires 1, .timerHandler 1, .timerExpires 0, .timerHandler 0,
        .cancelPendingServerEndpoints (some 1), .acceptHandler 0 false, .complete 2, .onCompleted 0,
        .acceptCompletes 0 true, .acceptHandler 0 false] = some s ∧
      (s.completing = [⟨1, .timeout, none⟩, ⟨2, .canceled, none⟩, ⟨3, .success, some 1⟩] ∧
        s.completions = [⟨0, .timeout, none⟩] ∧ s.granted = [(3, 1)] ∧ s.aborted = []) ∧
      ∀ pair ∈ s.granted, ∀ id ≤ pair.1, id ∈ (s.completing ++ s.completions).map WaitCompletion.id := by
  refine Machine.exists_run ⟨_, rfl, rfl, rfl, rfl, rfl⟩ fun ran _ => ?_
  exact (calls_served ran).2.2.2.2.2.2.2.2.2.2

end TcpPipeServerEnv

end CommonRpc
