/-
Module: CommonRpc.Proofs.TcpPipeServerEnv
Purpose: The queue discipline of `tcp_pipe_server_env` over every interleaving of calls, accept completions,
  timers, cancellations and the windows between deciding an operation, setting its promise and taking it out
  of the list. `Disciplined` says where every operation is; each primitive of the source keeps it, and what the
  rounds of a cancellation keep, the cancellation keeps.
Trusted boundary: none
-/
import CommonRpc.Core.TcpPipeServerEnv
import Mathlib.Data.List.Nodup
import Mathlib.Data.List.Perm.Basic

namespace CommonRpc

namespace TcpPipeServerEnv

open Lib

/-- The results that are decided, whether or not their promise is set. -/
def records (s : TcpPipeServerEnv) : List WaitCompletion := s.completing ++ s.completions

/-- The operations whose result is decided, whether or not their promise is set. -/
def settled (s : TcpPipeServerEnv) : List Nat := (s.completing ++ s.completions).map WaitCompletion.id

/-- The operations whose accept is outstanding. -/
def accepting (s : TcpPipeServerEnv) : List Nat := s.accepts.map Accept.opId

def listed (s : TcpPipeServerEnv) : List Nat := s.createOperations.map CreateOperationData.id

/-- Where the operations are. -/
structure Disciplined (s : TcpPipeServerEnv) : Prop where
  count : s.operations.length = s.nextId
  increasing : s.listed.Pairwise (· < ·)
  below : ∀ id ∈ s.listed, id < s.nextId
  backStarted : ∀ id ∈ s.listed.head?, (s.operation id).wasStarted = true
  queuedIdle : ∀ id ∈ s.listed.tail, s.operation id = {}
  acceptsBack : ∀ id ∈ s.accepting, s.listed.head? = some id
  once : (s.accepting ++ s.settled).Nodup
  queuedOpen : ∀ id ∈ s.listed.tail, id ∉ s.settled
  continued : ∀ id ∈ s.continuations, id ∈ s.completions.map WaitCompletion.id
  awake : ∀ id ∈ s.listed.head?, id ∈ s.accepting ∨ id ∈ s.completing.map WaitCompletion.id ∨
    id ∈ s.continuations
  settledBelow : ∀ id ∈ s.settled, id < s.nextId
  accounted : ∀ id < s.nextId, id ∈ s.listed ∨ id ∈ s.settled
  noAssertion : s.assertionFailed = false
  abortsOwn : ∀ pair ∈ s.aborted, pair.1 = pair.2
  aborts : ∀ accept ∈ s.accepts, (s.operation accept.opId).wasCanceled = true → accept.completion.isSome = true

theorem disciplined_init : Disciplined {} := by
  constructor <;> simp [listed, accepting, settled]

variable {s t : TcpPipeServerEnv}

/-- At most one accept is outstanding, that of the back. -/
theorem Disciplined.accepts_shape (inv : Disciplined s) :
    s.accepts = [] ∨ ∃ accept rest, s.accepts = [accept] ∧ s.listed = accept.opId :: rest := by
  cases accepts : s.accepts with
  | nil => exact .inl rfl
  | cons first others =>
      have firstBack := inv.acceptsBack first.opId (by simp [accepting, accepts])
      cases others with
      | nil => exact .inr ⟨first, _, rfl, (List.head?_eq_some_iff.mp firstBack).choose_spec⟩
      | cons second more =>
          have secondBack := inv.acceptsBack second.opId (by simp [accepting, accepts])
          have same : first.opId = second.opId := Option.some.inj (firstBack.symm.trans secondBack)
          have once := (List.nodup_append.mp inv.once).1
          simp [accepting, accepts, same] at once

theorem operation_modify_self {ops : List CreateOperation} {id : Nat} {f : CreateOperation → CreateOperation}
    (below : id < ops.length) : (ops.modify id f).getD id {} = f (ops.getD id {}) := by
  simp [List.getD_eq_getElem?_getD, below]

theorem operation_modify_other {ops : List CreateOperation} {id other : Nat}
    {f : CreateOperation → CreateOperation} (apart : id ≠ other) :
    (ops.modify id f).getD other {} = ops.getD other {} := by
  simp [List.getD_eq_getElem?_getD, apart]

theorem Disciplined.head_lt (inv : Disciplined s) {id : Nat} {rest : List Nat} (listed : s.listed = id :: rest) :
    ∀ other ∈ rest, id < other := by
  have increasing := inv.increasing
  rw [listed, List.pairwise_cons] at increasing
  exact increasing.1

/-- The invariant does not look at the timers. -/
theorem Disciplined.timer (inv : Disciplined s) (timer : MultipleTimer Nat) :
    Disciplined { s with timer := timer } := by
  cases inv
  constructor <;> assumption

/-! ### Starting the back of the list -/

/-- The list between the end of one operation and the start of the next: nothing listed is started. -/
structure Unstarted (s : TcpPipeServerEnv) : Prop where
  count : s.operations.length = s.nextId
  increasing : s.listed.Pairwise (· < ·)
  below : ∀ id ∈ s.listed, id < s.nextId
  idle : ∀ id ∈ s.listed, s.operation id = {}
  noAccept : s.accepts = []
  once : s.settled.Nodup
  unsettled : ∀ id ∈ s.listed, id ∉ s.settled
  continued : ∀ id ∈ s.continuations, id ∈ s.completions.map WaitCompletion.id
  settledBelow : ∀ id ∈ s.settled, id < s.nextId
  accounted : ∀ id < s.nextId, id ∈ s.listed ∨ id ∈ s.settled
  noAssertion : s.assertionFailed = false
  abortsOwn : ∀ pair ∈ s.aborted, pair.1 = pair.2

/-- With an empty list there is nothing to start. -/
theorem Unstarted.empty (inv : Unstarted s) (empty : s.listed = []) : Disciplined s where
  count := inv.count
  increasing := inv.increasing
  below := inv.below
  backStarted := by simp [empty]
  queuedIdle := by simp [empty]
  acceptsBack := by simp [accepting, inv.noAccept]
  once := by simpa [accepting, inv.noAccept] using inv.once
  queuedOpen := by simp [empty]
  continued := inv.continued
  awake := by simp [empty]
  settledBelow := inv.settledBelow
  accounted := inv.accounted
  noAssertion := inv.noAssertion
  abortsOwn := inv.abortsOwn
  aborts := by simp [inv.noAccept]

/-- Starting the back gives it the only accept. -/
theorem Unstarted.start (inv : Unstarted s) {id : Nat} {rest : List Nat} (back : s.listed = id :: rest) :
    Disciplined (s.start id) := by
  have mine : id ∈ s.listed := by simp [back]
  have apart : ∀ other ∈ rest, id ≠ other := by
    intro other member
    have increasing := inv.increasing
    rw [back, List.pairwise_cons] at increasing
    exact Nat.ne_of_lt (increasing.1 other member)
  have listed : (s.start id).listed = id :: rest := back
  have accepts : (s.start id).accepts = [{ opId := id }] := by
    simp [TcpPipeServerEnv.start, inv.noAccept]
  have accepting : (s.start id).accepting = [id] := by simp [TcpPipeServerEnv.accepting, accepts]
  have started : (s.start id).operation id = { wasStarted := true } := by
    have same := operation_modify_self (f := fun op => { op with wasStarted := true })
      (inv.count.symm ▸ inv.below id mine)
    have idle : s.operations.getD id {} = {} := inv.idle id mine
    rw [idle] at same
    exact same
  refine
    { count := ?_
      increasing := inv.increasing
      below := inv.below
      backStarted := ?_
      queuedIdle := ?_
      acceptsBack := ?_
      once := ?_
      queuedOpen := ?_
      continued := inv.continued
      awake := ?_
      settledBelow := inv.settledBelow
      accounted := inv.accounted
      noAssertion := ?_
      abortsOwn := inv.abortsOwn
      aborts := ?_ }
  · simpa [TcpPipeServerEnv.start] using inv.count
  · rw [listed]
    rintro _ ⟨⟩
    rw [started]
  · rw [listed, List.tail_cons]
    intro other member
    have same := inv.idle other (by simp [back, member])
    simpa only [operation, TcpPipeServerEnv.start, operation_modify_other (apart other member)] using same
  · rw [accepting, listed]
    intro other member
    rw [List.mem_singleton.mp member]
    rfl
  · rw [accepting]
    exact List.nodup_cons.mpr ⟨inv.unsettled id mine, inv.once⟩
  · rw [listed, List.tail_cons]
    intro other member
    exact inv.unsettled other (by simp [back, member])
  · rw [listed, accepting]
    rintro _ ⟨⟩
    exact .inl (List.mem_singleton_self _)
  · simp [TcpPipeServerEnv.start, inv.noAssertion, inv.idle id mine]
  · rw [accepts]
    intro accept member
    rw [List.mem_singleton.mp member, started]
    simp

/-! ### The calls -/

section EmplaceFront

variable {clientId : Nat} {timed : Bool}

theorem listed_emplaceFront : (s.emplaceFront clientId timed).listed = s.listed ++ [s.nextId] := by
  simp [listed, emplaceFront]

theorem operation_emplaceFront (count : s.operations.length = s.nextId) (id : Nat) :
    (s.emplaceFront clientId timed).operation id = s.operation id := by
  simp only [operation, emplaceFront, List.getD_eq_getElem?_getD]
  rcases Nat.lt_trichotomy id s.operations.length with old | new | beyond
  · rw [List.getElem?_append_left old]
  · subst new
    simp
  · rw [List.getElem?_eq_none (by simp; omega), List.getElem?_eq_none (by omega)]

theorem operation_nextId (count : s.operations.length = s.nextId) : s.operation s.nextId = {} := by
  rw [operation, ← count]
  simp

theorem accounted_emplaceFront (accounted : ∀ id < s.nextId, id ∈ s.listed ∨ id ∈ s.settled) :
    ∀ id < s.nextId + 1, id ∈ (s.emplaceFront clientId timed).listed ∨ id ∈ s.settled := by
  rw [listed_emplaceFront]
  intro id below
  rcases Nat.lt_succ_iff_lt_or_eq.mp below with old | new
  · rcases accounted id old with waits | done
    · exact .inl (List.mem_append_left _ waits)
    · exact .inr done
  · exact .inl (by simp [new])

/-- The first operation of an empty list is there to be started. -/
theorem emplaceFront_unstarted (inv : Disciplined s) (empty : s.listed = []) :
    Unstarted (s.emplaceFront clientId timed) := by
  have noAccept : s.accepts = [] := by
    rcases inv.accepts_shape with none | ⟨accept, rest, _, back⟩
    · exact none
    · rw [empty] at back
      cases back
  have listed : (s.emplaceFront clientId timed).listed = [s.nextId] := by
    rw [listed_emplaceFront, empty]
    rfl
  refine
    { count := by simp [emplaceFront, inv.count]
      increasing := listed ▸ List.pairwise_singleton _ _
      below := ?_
      idle := ?_
      noAccept := noAccept
      once := (List.nodup_append.mp inv.once).2.1
      unsettled := ?_
      continued := inv.continued
      settledBelow := fun id member => Nat.lt_succ_of_lt (inv.settledBelow id member)
      accounted := accounted_emplaceFront inv.accounted
      noAssertion := inv.noAssertion
      abortsOwn := inv.abortsOwn }
  · rw [listed]
    intro id member
    rw [List.mem_singleton.mp member]
    exact Nat.lt_succ_self _
  · rw [listed]
    intro id member
    rw [List.mem_singleton.mp member, operation_emplaceFront inv.count, operation_nextId inv.count]
  · rw [listed]
    intro id member settled
    rw [List.mem_singleton.mp member] at settled
    exact Nat.lt_irrefl _ (inv.settledBelow _ settled)

/-- A later operation waits in front of the list. -/
theorem emplaceFront_disciplined (inv : Disciplined s) {back : Nat} {rest : List Nat}
    (listed : s.listed = back :: rest) : Disciplined (s.emplaceFront clientId timed) := by
  have after : (s.emplaceFront clientId timed).listed = back :: (rest ++ [s.nextId]) := by
    rw [listed_emplaceFront, listed]
    rfl
  have same (id : Nat) : (s.emplaceFront clientId timed).operation id = s.operation id :=
    operation_emplaceFront inv.count id
  refine
    { count := by simp [emplaceFront, inv.count]
      increasing := ?_
      below := ?_
      backStarted := ?_
      queuedIdle := ?_
      acceptsBack := ?_
      once := inv.once
      queuedOpen := ?_
      continued := inv.continued
      awake := ?_
      settledBelow := fun id member => Nat.lt_succ_of_lt (inv.settledBelow id member)
      accounted := accounted_emplaceFront inv.accounted
      noAssertion := inv.noAssertion
      abortsOwn := inv.abortsOwn
      aborts := ?_ }
  · rw [listed_emplaceFront, List.pairwise_append]
    refine ⟨inv.increasing, List.pairwise_singleton _ _, ?_⟩
    intro old oldMember new newMember
    rw [List.mem_singleton.mp newMember]
    exact inv.below old oldMember
  · rw [listed_emplaceFront]
    intro id member
    rcases List.mem_append.mp member with old | new
    · exact Nat.lt_succ_of_lt (inv.below id old)
    · rw [List.mem_singleton.mp new]
      exact Nat.lt_succ_self _
  · rw [after]
    rintro _ ⟨⟩
    rw [same]
    exact inv.backStarted back (by simp [listed])
  · rw [after, List.tail_cons]
    intro id member
    rw [same]
    rcases List.mem_append.mp member with old | new
    · exact inv.queuedIdle id (by simp [listed, old])
    · rw [List.mem_singleton.mp new, operation_nextId inv.count]
  · intro id member
    have isBack := inv.acceptsBack id member
    rw [listed] at isBack
    rw [after]
    exact isBack
  · rw [after, List.tail_cons]
    intro id member settled
    rcases List.mem_append.mp member with old | new
    · exact inv.queuedOpen id (by simp [listed, old]) settled
    · rw [List.mem_singleton.mp new] at settled
      exact Nat.lt_irrefl _ (inv.settledBelow _ settled)
  · rw [after]
    rintro _ ⟨⟩
    exact inv.awake back (by simp [listed])
  · intro accept member
    rw [same]
    exact inv.aborts accept member

theorem createPipe_disciplined (inv : Disciplined s) : Disciplined (s.createPipe clientId timed) := by
  have size : (s.emplaceFront clientId timed).createOperations.length = s.createOperations.length + 1 := by
    simp [emplaceFront]
  simp only [createPipe, size]
  cases listed : s.listed with
  | nil =>
      have empty : s.createOperations = [] := by simpa [TcpPipeServerEnv.listed] using listed
      have back : (s.emplaceFront clientId timed).listed = s.nextId :: [] := by
        rw [listed_emplaceFront, listed]
        rfl
      rw [if_pos (by simp [empty])]
      exact (emplaceFront_unstarted inv listed).start back
  | cons back rest =>
      have busy : s.createOperations ≠ [] := by
        intro empty
        simp [TcpPipeServerEnv.listed, empty] at listed
      rw [if_neg (by simpa using busy)]
      exact emplaceFront_disciplined inv listed

end EmplaceFront

/-! ### Cancelling -/

theorem accepting_acceptorCancel (id : Nat) : (s.acceptorCancel id).accepting = s.accepting := by
  simp only [accepting, acceptorCancel, List.map_map]
  apply List.map_congr_left
  intro accept _
  simp only [Function.comp_apply]
  split <;> rfl

theorem acceptorCancel_completes {id : Nat} :
    ∀ accept ∈ (s.acceptorCancel id).accepts, accept.completion.isSome = true := by
  intro accept member
  obtain ⟨before, _, rfl⟩ := List.mem_map.mp member
  split
  · rfl
  · rename_i completed
    exact Option.isSome_iff_ne_none.mpr (by simpa using completed)

theorem operation_markCanceled_self {id : Nat} (byTimer : Bool) (below : id < s.operations.length) :
    (s.markCanceled id byTimer).operation id =
      { s.operation id with wasCanceled := true, canceledByTimer := byTimer } :=
  operation_modify_self below

theorem operation_markCanceled_other {id other : Nat} (byTimer : Bool) (apart : id ≠ other) :
    (s.markCanceled id byTimer).operation other = s.operation other :=
  operation_modify_other apart

/-- While the back is being cancelled, the only accept there is to abort is its own. -/
theorem acceptorCancel_back (inv : Disciplined s) {id : Nat} (isBack : s.listed.head? = some id) :
    Disciplined (s.acceptorCancel id) := by
  have accepting := accepting_acceptorCancel (s := s) id
  exact
    { inv with
      acceptsBack := by
        rw [accepting]
        exact inv.acceptsBack
      once := by
        rw [accepting]
        exact inv.once
      awake := by
        rw [accepting]
        exact inv.awake
      abortsOwn := by
        intro pair member
        rcases List.mem_append.mp member with old | new
        · exact inv.abortsOwn pair old
        · obtain ⟨accept, inAccepts, rfl⟩ := List.mem_map.mp new
          have own := inv.acceptsBack accept.opId (List.mem_map_of_mem (List.mem_filter.mp inAccepts).1)
          exact Option.some.inj (own.symm.trans isBack)
      aborts := fun accept member _ => acceptorCancel_completes accept member }

/-- The back may be marked as cancelled once its accept is aborted. -/
theorem markCanceled_back (inv : Disciplined s) {id : Nat} (byTimer : Bool) (isBack : s.listed.head? = some id)
    (aborted : ∀ accept ∈ s.accepts, accept.completion.isSome = true) :
    Disciplined (s.markCanceled id byTimer) := by
  have below : id < s.operations.length := inv.count ▸ inv.below id (List.mem_of_mem_head? isBack)
  obtain ⟨rest, listed⟩ := List.head?_eq_some_iff.mp isBack
  exact
    { inv with
      count := by simpa [markCanceled] using inv.count
      backStarted := by
        intro other head
        obtain rfl : id = other := Option.some.inj (isBack.symm.trans head)
        rw [operation_markCanceled_self byTimer below]
        exact inv.backStarted id isBack
      queuedIdle := by
        intro other member
        have apart : id ≠ other := by
          have tail : other ∈ s.listed.tail := member
          rw [listed, List.tail_cons] at tail
          exact Nat.ne_of_lt (inv.head_lt listed other tail)
        rw [operation_markCanceled_other byTimer apart]
        exact inv.queuedIdle other member
      aborts := fun accept member _ => aborted accept member }

/-- Cancelling the back leaves its completion to its accept handler. -/
theorem cancelOperation_back (inv : Disciplined s) {id : Nat} (byTimer : Bool)
    (isBack : s.listed.head? = some id) :
    Disciplined (s.cancelOperation id byTimer) := by
  have started := inv.backStarted id isBack
  cases canceled : (s.operation id).wasCanceled with
  | true => simpa [cancelOperation, cancel, canceled, completeLater] using inv
  | false =>
      simp only [cancelOperation, cancel, canceled, started, Bool.false_eq_true, if_false, if_true,
        completeLater]
      exact markCanceled_back (acceptorCancel_back inv isBack) byTimer isBack acceptorCancel_completes

theorem listed_erase (id : Nat) : (s.erase id).listed = s.listed.erase id := by
  simp only [listed, erase]
  induction s.createOperations with
  | nil => rfl
  | cons data rest ih =>
      by_cases mine : data.id = id
      · simp [mine]
      · simp [mine, ih]

/-- What cancelling does to an operation that was not started: it is decided on the spot. -/
theorem cancelOperation_idle {id : Nat} (byTimer : Bool) (idle : s.operation id = {}) :
    s.cancelOperation id byTimer =
      { s.markCanceled id byTimer with
        completing := s.completing ++ [⟨id, if byTimer then .timeout else .canceled, none⟩] } := by
  simp [cancelOperation, cancel, idle, completeLater, markCanceled]

/-- An operation leaves the queue and is decided; the others are as before. -/
theorem Disciplined.drop (inv : Disciplined s) {id back : Nat} {rest : List Nat} {completion : WaitCompletion}
    (listed : s.listed = back :: rest) (queued : id ∈ rest) (own : completion.id = id)
    (after : t.listed = back :: rest.erase id)
    (ops : ∀ other, id ≠ other → t.operation other = s.operation other)
    (completing : t.completing = s.completing ++ [completion])
    (same : t.nextId = s.nextId ∧ t.operations.length = s.operations.length ∧ t.accepts = s.accepts ∧
      t.completions = s.completions ∧ t.continuations = s.continuations ∧
      t.assertionFailed = s.assertionFailed ∧ t.aborted = s.aborted) : Disciplined t := by
  obtain ⟨nextId, count, accepts, completions, continuations, assertion, aborted⟩ := same
  have accepting : t.accepting = s.accepting := by rw [TcpPipeServerEnv.accepting, accepts]; rfl
  have tail : s.listed.tail = rest := by rw [listed, List.tail_cons]
  have increasing : (back :: rest).Pairwise (· < ·) := listed ▸ inv.increasing
  have apart : id ≠ back := Nat.ne_of_gt (inv.head_lt listed id queued)
  have restOnce : rest.Nodup := (List.pairwise_cons.mp increasing).2.imp Nat.ne_of_lt
  have settled : t.settled.Perm (id :: s.settled) := by
    simp only [TcpPipeServerEnv.settled, completing, completions, List.append_assoc, List.singleton_append,
      List.map_append, List.map_cons, own]
    exact List.perm_middle
  have sub : (back :: rest.erase id).Sublist (back :: rest) := List.erase_sublist.cons_cons _
  refine
    { count := by rw [count, nextId, inv.count]
      increasing := by rw [after]; exact increasing.sublist sub
      below := ?_
      backStarted := ?_
      queuedIdle := ?_
      acceptsBack := ?_
      once := ?_
      queuedOpen := ?_
      continued := by rw [continuations, completions]; exact inv.continued
      awake := ?_
      settledBelow := ?_
      accounted := ?_
      noAssertion := assertion.trans inv.noAssertion
      abortsOwn := aborted ▸ inv.abortsOwn
      aborts := ?_ }
  · rw [after, nextId]
    intro other member
    exact inv.below other (listed ▸ sub.subset member)
  · rw [after]
    rintro _ ⟨⟩
    rw [ops back apart]
    exact inv.backStarted back (by simp [listed])
  · rw [after, List.tail_cons]
    intro other member
    obtain ⟨different, old⟩ := restOnce.mem_erase_iff.mp member
    rw [ops other different.symm]
    exact inv.queuedIdle other (tail ▸ old)
  · rw [accepting, after]
    intro other member
    have isBack := inv.acceptsBack other member
    rw [listed] at isBack
    exact isBack
  · rw [accepting, (settled.append_left _).nodup_iff, List.nodup_middle, List.nodup_cons]
    refine ⟨?_, inv.once⟩
    intro member
    rcases List.mem_append.mp member with accepts | done
    · have isBack := inv.acceptsBack id accepts
      rw [listed] at isBack
      exact apart (Option.some.inj isBack).symm
    · exact inv.queuedOpen id (tail ▸ queued) done
  · rw [after, List.tail_cons]
    intro other member done
    obtain ⟨different, old⟩ := restOnce.mem_erase_iff.mp member
    rcases List.mem_cons.mp (settled.mem_iff.mp done) with now | before
    · exact different now
    · exact inv.queuedOpen other (tail ▸ old) before
  · rw [after, accepting, continuations, completing]
    rintro _ ⟨⟩
    rcases inv.awake back (by simp [listed]) with accepts | decided | later
    · exact .inl accepts
    · exact .inr (.inl (by simp only [List.map_append]; exact List.mem_append_left _ decided))
    · exact .inr (.inr later)
  · rw [nextId]
    intro other done
    rcases List.mem_cons.mp (settled.mem_iff.mp done) with now | before
    · rw [now]
      exact inv.below id (listed ▸ List.mem_cons_of_mem _ queued)
    · exact inv.settledBelow other before
  · rw [nextId, after]
    intro other below
    by_cases now : other = id
    · exact .inr (settled.mem_iff.mpr (now ▸ List.mem_cons_self))
    · rcases inv.accounted other below with waits | done
      · rw [listed] at waits
        rcases List.mem_cons.mp waits with head | queue
        · exact .inl (head ▸ List.mem_cons_self)
        · exact .inl (List.mem_cons_of_mem _ (restOnce.mem_erase_iff.mpr ⟨now, queue⟩))
      · exact .inr (settled.mem_iff.mpr (List.mem_cons_of_mem _ done))
  · rw [accepts]
    intro accept member
    have isBack := inv.acceptsBack accept.opId (List.mem_map_of_mem member)
    rw [listed] at isBack
    rw [ops accept.opId (Option.some.inj isBack ▸ apart)]
    exact inv.aborts accept member

theorem exists_back {id : Nat} (queued : id ∈ s.listed.tail) :
    ∃ back rest, s.listed = back :: rest ∧ id ∈ rest := by
  cases listed : s.listed with
  | nil => simp [listed] at queued
  | cons back rest => exact ⟨back, rest, rfl, by simpa [listed] using queued⟩

/-- A queued operation that is cancelled leaves the list and is decided. -/
theorem cancelOperation_queued (inv : Disciplined s) {id : Nat} (byTimer : Bool) (queued : id ∈ s.listed.tail) :
    Disciplined ((s.cancelOperation id byTimer).erase id) := by
  obtain ⟨back, rest, listed, inRest⟩ := exists_back queued
  have apart : back ≠ id := Nat.ne_of_lt (inv.head_lt listed id inRest)
  rw [cancelOperation_idle byTimer (inv.queuedIdle id queued)]
  apply inv.drop listed inRest rfl ?_ ?_ rfl ?_
  · rw [listed_erase]
    change s.listed.erase id = _
    rw [listed, List.erase_cons_tail (by simpa using apart)]
  · intro other different
    exact operation_markCanceled_other byTimer different
  · exact ⟨rfl, by simp [TcpPipeServerEnv.erase, markCanceled], rfl, rfl, rfl, rfl, rfl⟩

/-- One round of the cancellation loop, on an operation that is not the back. -/
theorem cancelListed_queued (inv : Disciplined s) {data : CreateOperationData}
    (queued : data.id ∈ s.listed.tail) :
    Disciplined ((s.cancelListed data).erase data.id) :=
  cancelOperation_queued (inv.timer _) false queued

theorem listed_cancelListed_erase (inv : Disciplined s) {data : CreateOperationData}
    (queued : data.id ∈ s.listed.tail) :
    ((s.cancelListed data).erase data.id).listed = s.listed.erase data.id := by
  have idle :
      ({ s with timer := s.timer.cancelOptional data.timerId } : TcpPipeServerEnv).operation data.id = {} :=
    inv.queuedIdle data.id queued
  rw [cancelListed, cancelOperation_idle false idle, listed_erase]
  rfl

/-- What one round of the cancellation loop keeps, the loop keeps; `P` may speak of the operations that are
    still to be cancelled. -/
theorem cancelLoop_rule {P : List CreateOperationData → TcpPipeServerEnv → Prop}
    {cancelled later : List CreateOperationData} (inv : Disciplined s)
    {back : Nat} {rest : List Nat} (listed : s.listed = back :: rest)
    (once : (cancelled.map CreateOperationData.id).Nodup) (queued : ∀ data ∈ cancelled, data.id ∈ rest)
    (start : P (cancelled ++ later) s)
    (round : ∀ {u data more}, Disciplined u → P (data :: more) u → data.id ∈ u.listed.tail →
      P more ((u.cancelListed data).erase data.id)) :
    Disciplined (cancelled.foldl (fun s data => (s.cancelListed data).erase data.id) s) ∧
      (cancelled.foldl (fun s data => (s.cancelListed data).erase data.id) s).listed.head? = some back ∧
      P later (cancelled.foldl (fun s data => (s.cancelListed data).erase data.id) s) := by
  -- by induction on the operations still to cancel: they stay queued while others leave the queue
  induction cancelled generalizing s rest with
  | nil => exact ⟨inv, by simp [listed], start⟩
  | cons data more ih =>
      have mine : data.id ∈ rest := queued data List.mem_cons_self
      have inTail : data.id ∈ s.listed.tail := by
        rw [listed]
        exact mine
      have apart : back ≠ data.id := Nat.ne_of_lt (inv.head_lt listed _ mine)
      rw [List.map_cons, List.nodup_cons] at once
      have after : ((s.cancelListed data).erase data.id).listed = back :: rest.erase data.id := by
        rw [listed_cancelListed_erase inv inTail, listed, List.erase_cons_tail (by simpa using apart)]
      apply ih (cancelListed_queued inv inTail) after once.2 ?_ (round inv start inTail)
      intro other member
      have different : other.id ≠ data.id := by
        intro same
        exact once.1 (same ▸ List.mem_map_of_mem member)
      exact (List.mem_erase_of_ne different).mpr (queued other (List.mem_cons_of_mem _ member))

/-- What cancelling a queued operation and cancelling the back keep, a cancellation keeps. -/
theorem cancelPending_rule {P : List CreateOperationData → TcpPipeServerEnv → Prop} (inv : Disciplined s)
    (clientId : Option Nat) (start : P (s.createOperations.reverse.filter (wanted clientId)) s)
    (round : ∀ {u data more}, Disciplined u → P (data :: more) u → data.id ∈ u.listed.tail →
      P more ((u.cancelListed data).erase data.id))
    (last : ∀ {u data}, Disciplined u → P [data] u → u.listed.head? = some data.id → P [] (u.cancelListed data)) :
    Disciplined (s.cancelPendingServerEndpoints clientId) ∧ P [] (s.cancelPendingServerEndpoints clientId) := by
  simp only [cancelPendingServerEndpoints]
  split
  · rename_i createOperations
    rw [createOperations] at start
    exact ⟨inv, start⟩
  · rename_i back rest createOperations
    have listed : s.listed = back.id :: rest.map CreateOperationData.id := by
      simp [TcpPipeServerEnv.listed, createOperations]
    have increasing := inv.increasing
    rw [listed, List.pairwise_cons] at increasing
    have restOnce : (rest.map CreateOperationData.id).Nodup := increasing.2.imp Nat.ne_of_lt
    have sub : (rest.reverse.filter (wanted clientId)).Sublist rest.reverse := List.filter_sublist
    have once : ((rest.reverse.filter (wanted clientId)).map CreateOperationData.id).Nodup := by
      apply List.Nodup.sublist (sub.map _)
      rw [List.map_reverse]
      exact List.nodup_reverse.mpr restOnce
    have queued : ∀ data ∈ rest.reverse.filter (wanted clientId), data.id ∈ rest.map CreateOperationData.id := by
      intro data member
      exact List.mem_map_of_mem (List.mem_reverse.mp (sub.subset member))
    rw [createOperations, List.reverse_cons, List.filter_append] at start
    obtain ⟨looped, head, kept⟩ := cancelLoop_rule inv listed once queued start round
    split
    · rename_i isWanted
      rw [List.filter_cons_of_pos isWanted, List.filter_nil] at kept
      exact ⟨cancelOperation_back (looped.timer _) false head, last looped kept head⟩
    · rename_i notWanted
      rw [List.filter_cons_of_neg notWanted, List.filter_nil] at kept
      exact ⟨looped, kept⟩

/-- What cancelling the back and cancelling a queued operation keep, a timeout keeps. -/
theorem onTimeout_rule {P : TcpPipeServerEnv → Prop} (id : Nat) (start : P s)
    (queued : id ∈ s.listed.tail → P ((s.cancelOperation id true).erase id))
    (back : s.listed.head? = some id → P (s.cancelOperation id true)) : P (s.onTimeout id) := by
  simp only [onTimeout]
  split
  · exact start
  · rename_i data found
    have mine : data.id = id := by simpa using List.find?_some found
    have member : id ∈ s.listed := mine ▸ List.mem_map_of_mem (List.mem_of_find?_eq_some found)
    split
    · rename_i head
      apply back
      rw [listed, List.head?_map]
      exact head
    · rename_i notHead
      apply queued
      cases listed : s.listed with
      | nil => simp [listed] at member
      | cons first rest =>
          rw [listed] at member
          rcases List.mem_cons.mp member with isBack | inRest
          · have head : s.listed.head? = some id := by
              rw [listed, isBack]
              rfl
            rw [TcpPipeServerEnv.listed, List.head?_map] at head
            exact absurd head notHead
          · exact inRest

/-! ### Accepts, promises and continuations -/

theorem Disciplined.only_accept (inv : Disciplined s) {index : Nat} {accept : Accept}
    (found : s.accepts[index]? = some accept) :
    index = 0 ∧ s.accepts = [accept] ∧ ∃ rest, s.listed = accept.opId :: rest := by
  rcases inv.accepts_shape with none | ⟨only, rest, accepts, listed⟩
  · simp [none] at found
  · cases index with
    | succ index => simp [accepts] at found
    | zero =>
        obtain rfl : only = accept := by simpa [accepts] using found
        exact ⟨rfl, accepts, rest, listed⟩

/-- Only what the accept of the back will be given has changed. -/
theorem acceptCompletes_disciplined (inv : Disciplined s) {index : Nat} {accept : Accept}
    {outcome : AcceptOutcome} (found : s.accepts[index]? = some accept) (sockets : Nat) :
    Disciplined { s with
      nextSocket := sockets
      accepts := s.accepts.set index ⟨accept.opId, some outcome⟩ } := by
  obtain ⟨rfl, accepts, _⟩ := inv.only_accept found
  have accepting : (s.accepts.set 0 ⟨accept.opId, some outcome⟩).map Accept.opId = s.accepting := by
    simp [TcpPipeServerEnv.accepting, accepts]
  exact
    { inv with
      acceptsBack := by
        intro id member
        exact inv.acceptsBack id (accepting ▸ member)
      once := by
        have once := inv.once
        rw [← accepting] at once
        exact once
      awake := by
        have awake := inv.awake
        rw [← accepting] at awake
        exact awake
      aborts := by simp [accepts] }

/-- The accept of the back is decided. -/
theorem acceptHandler_disciplined (inv : Disciplined s) {index : Nat} {accept : Accept}
    {completion : WaitCompletion} (found : s.accepts[index]? = some accept) (own : completion.id = accept.opId)
    (granted : List (Nat × Nat)) :
    Disciplined { s with
      accepts := s.accepts.eraseIdx index
      completing := s.completing ++ [completion]
      granted := granted } := by
  obtain ⟨rfl, accepts, rest, listed⟩ := inv.only_accept found
  have accepting : s.accepting = [accept.opId] := by simp [TcpPipeServerEnv.accepting, accepts]
  have none : (s.accepts.eraseIdx 0).map Accept.opId = [] := by simp [accepts]
  have empty : s.accepts.eraseIdx 0 = [] := by simp [accepts]
  have settled : ((s.completing ++ [completion] ++ s.completions).map WaitCompletion.id).Perm
      (accept.opId :: s.settled) := by
    simp only [TcpPipeServerEnv.settled, List.append_assoc, List.singleton_append, List.map_append,
      List.map_cons, own]
    exact List.perm_middle
  have once := inv.once
  rw [accepting, List.singleton_append] at once
  exact
    { inv with
      acceptsBack := by
        intro id member
        change id ∈ (s.accepts.eraseIdx 0).map Accept.opId at member
        rw [none] at member
        cases member
      once := by
        change ((s.accepts.eraseIdx 0).map Accept.opId ++
          (s.completing ++ [completion] ++ s.completions).map WaitCompletion.id).Nodup
        rw [none, List.nil_append]
        exact settled.nodup_iff.mpr once
      queuedOpen := by
        intro id queued done
        rcases List.mem_cons.mp (settled.mem_iff.mp done) with now | before
        · have tail : id ∈ s.listed.tail := queued
          rw [listed, List.tail_cons] at tail
          exact Nat.ne_of_gt (inv.head_lt listed id tail) now
        · exact inv.queuedOpen id queued before
      awake := by
        intro id head
        have isBack : s.listed.head? = some id := head
        rw [listed] at isBack
        cases isBack
        exact .inr (.inl (by simp [own]))
      settledBelow := by
        intro id done
        rcases List.mem_cons.mp (settled.mem_iff.mp done) with now | before
        · exact now ▸ inv.below accept.opId (by simp [listed])
        · exact inv.settledBelow id before
      accounted := by
        intro id below
        rcases inv.accounted id below with waits | done
        · exact .inl waits
        · exact .inr (settled.mem_iff.mpr (List.mem_cons_of_mem _ done))
      aborts := fun accept member => by simp [empty] at member }

theorem completing_taken {index : Nat} {completion : WaitCompletion}
    (found : s.completing[index]? = some completion) :
    (completion :: s.completing.eraseIdx index).Perm s.completing := by
  obtain ⟨inRange, place⟩ := List.getElem?_eq_some_iff.mp found
  exact place ▸ List.getElem_cons_eraseIdx_perm inRange

/-- A result that reaches its promise stays decided. -/
theorem complete_records {index : Nat} {completion : WaitCompletion}
    (found : s.completing[index]? = some completion) :
    (s.completing.eraseIdx index ++ (s.completions ++ [completion])).Perm s.records := by
  rw [← List.append_assoc]
  apply (List.perm_append_singleton completion _).trans
  rw [← List.cons_append]
  exact (completing_taken found).append_right _

/-- A decided result reaches its promise, and the continuation of the promise is posted. -/
theorem complete_disciplined (inv : Disciplined s) {index : Nat} {completion : WaitCompletion}
    (found : s.completing[index]? = some completion) :
    Disciplined { s with
      completing := s.completing.eraseIdx index
      completions := s.completions ++ [completion]
      continuations := s.continuations ++ [completion.id] } := by
  have settled : ((s.completing.eraseIdx index ++ (s.completions ++ [completion])).map WaitCompletion.id).Perm
      s.settled :=
    (complete_records found).map _
  exact
    { inv with
      once := (settled.append_left _).nodup_iff.mpr inv.once
      queuedOpen := fun id queued done => inv.queuedOpen id queued (settled.mem_iff.mp done)
      continued := by
        intro id member
        simp only [List.map_append, List.map_cons, List.map_nil]
        rcases List.mem_append.mp member with old | new
        · exact List.mem_append_left _ (inv.continued id old)
        · exact List.mem_append_right _ new
      awake := by
        intro id head
        rcases inv.awake id head with accepts | decided | later
        · exact .inl accepts
        · have taken := (completing_taken found).map WaitCompletion.id
          rcases List.mem_cons.mp (taken.mem_iff.mpr decided) with now | still
          · exact .inr (.inr (List.mem_append_right _ (now ▸ List.mem_singleton_self _)))
          · exact .inr (.inl still)
        · exact .inr (.inr (List.mem_append_left _ later))
      settledBelow := fun id done => inv.settledBelow id (settled.mem_iff.mp done)
      accounted := by
        intro id below
        rcases inv.accounted id below with waits | done
        · exact .inl waits
        · exact .inr (settled.mem_iff.mpr done) }

/-- The back is completed and leaves the list. -/
theorem pop_unstarted (inv : Disciplined s) {back : CreateOperationData} {rest : List CreateOperationData}
    {continuations : List Nat} (timer : MultipleTimer Nat) (createOperations : s.createOperations = back :: rest)
    (completed : back.id ∈ s.completions.map WaitCompletion.id) (sub : continuations ⊆ s.continuations) :
    Unstarted { s with timer := timer, createOperations := rest, continuations := continuations } := by
  have listed : s.listed = back.id :: rest.map CreateOperationData.id := by
    simp [TcpPipeServerEnv.listed, createOperations]
  have tail : s.listed.tail = rest.map CreateOperationData.id := by rw [listed, List.tail_cons]
  have done : back.id ∈ s.settled := by
    rw [TcpPipeServerEnv.settled, List.map_append]
    exact List.mem_append_right _ completed
  have increasing := inv.increasing
  rw [listed, List.pairwise_cons] at increasing
  refine
    { count := inv.count
      increasing := increasing.2
      below := fun id member => inv.below id (listed ▸ List.mem_cons_of_mem _ member)
      idle := fun id member => inv.queuedIdle id (tail ▸ member)
      noAccept := ?_
      once := (List.nodup_append.mp inv.once).2.1
      unsettled := fun id member => inv.queuedOpen id (tail ▸ member)
      continued := fun id member => inv.continued id (sub member)
      settledBelow := inv.settledBelow
      accounted := ?_
      noAssertion := inv.noAssertion
      abortsOwn := inv.abortsOwn }
  · rcases inv.accepts_shape with none | ⟨accept, others, accepts, back'⟩
    · exact none
    · -- an outstanding accept would be that of the back, which is completed
      have same : back.id = accept.opId := by
        rw [listed] at back'
        exact (List.cons.inj back').1
      have apart := (List.nodup_append.mp inv.once).2.2
      exact absurd same.symm (apart accept.opId (by simp [accepting, accepts]) back.id done)
  · intro id below
    rcases inv.accounted id below with waits | settled
    · rw [listed] at waits
      rcases List.mem_cons.mp waits with head | queued
      · exact .inr (head ▸ done)
      · exact .inl queued
    · exact .inr settled

/-- A continuation of an operation that is not the back changes nothing. -/
theorem forget_continuation (inv : Disciplined s) {index id : Nat} (found : s.continuations[index]? = some id)
    (notBack : s.listed.head? ≠ some id) :
    Disciplined { s with continuations := s.continuations.eraseIdx index } := by
  obtain ⟨inRange, place⟩ := List.getElem?_eq_some_iff.mp found
  have taken : (id :: s.continuations.eraseIdx index).Perm s.continuations :=
    place ▸ List.getElem_cons_eraseIdx_perm inRange
  exact
    { inv with
      continued := fun other member => inv.continued other (taken.subset (List.mem_cons_of_mem _ member))
      awake := by
        intro other head
        rcases inv.awake other head with accepts | decided | later
        · exact .inl accepts
        · exact .inr (.inl decided)
        · rcases List.mem_cons.mp (taken.mem_iff.mpr later) with now | still
          · exact absurd (now ▸ head) notBack
          · exact .inr (.inr still) }

theorem onCompleted_disciplined (inv : Disciplined s) {index id : Nat}
    (found : s.continuations[index]? = some id) :
    Disciplined ({ s with continuations := s.continuations.eraseIdx index }.onCompleted id) := by
  have completed : id ∈ s.completions.map WaitCompletion.id := inv.continued id (List.mem_of_getElem? found)
  have sub : s.continuations.eraseIdx index ⊆ s.continuations := List.eraseIdx_subset
  simp only [onCompleted]
  split
  · rename_i createOperations
    exact forget_continuation inv found (by simp [listed, createOperations])
  · rename_i back rest createOperations
    split
    · rename_i mine
      have popped := pop_unstarted inv (s.timer.cancelOptional back.timerId) createOperations
        (mine ▸ completed) sub
      split
      · exact popped.empty rfl
      · exact popped.start rfl
    · rename_i notMine
      apply forget_continuation inv found
      intro head
      rw [listed, createOperations] at head
      exact notMine (Option.some.inj head)

/-! ### Every step and every run -/

theorem step_disciplined {e : Event} (inv : Disciplined s) (stepped : s.step e = some t) : Disciplined t := by
  cases e with
  | createPipe clientId timed =>
      cases stepped
      exact createPipe_disciplined inv
  | acceptCompletes index good =>
      simp only [step] at stepped
      split at stepped
      · rename_i opId found
        cases stepped
        exact acceptCompletes_disciplined inv found _
      · cases stepped
  | acceptHandler index optionFails =>
      simp only [step] at stepped
      split at stepped
      · rename_i opId outcome found
        cases stepped
        exact acceptHandler_disciplined inv found rfl _
      · cases stepped
  | complete index =>
      simp only [step] at stepped
      split at stepped
      · cases stepped
      · rename_i completion found
        cases stepped
        exact complete_disciplined inv found
  | onCompleted index =>
      simp only [step] at stepped
      split at stepped
      · cases stepped
      · rename_i id found
        cases stepped
        exact onCompleted_disciplined inv found
  | timerExpires timerId =>
      obtain ⟨timer, _, rfl⟩ := Option.map_eq_some_iff.mp stepped
      exact inv.timer timer
  | timerHandler timerId =>
      obtain ⟨⟨timer, callback⟩, _, rfl⟩ := Option.map_eq_some_iff.mp stepped
      cases callback with
      | none => exact inv.timer timer
      | some id =>
          exact onTimeout_rule id (inv.timer timer) (cancelOperation_queued (inv.timer timer) true)
            (cancelOperation_back (inv.timer timer) true)
  | cancelPendingServerEndpoints clientId =>
      cases stepped
      exact (cancelPending_rule (P := fun _ _ => True) inv clientId trivial (fun _ _ _ => trivial)
        (fun _ _ _ => trivial)).1

theorem run_disciplined {es : List Event} (ran : machine.run {} es = some s) : Disciplined s :=
  Machine.run_invariant (P := Disciplined) step_disciplined disciplined_init ran

end TcpPipeServerEnv

end CommonRpc
