/-
Module: CommonRpc.Proofs.MemBufferInvalidation
Purpose: What becomes of the reads and writes that are open when a `mem_buffer` is invalidated. `Drain` says
  once what a step of an invalid buffer can do; from it, every open read completes with the result that
  the invalidation chose for reads, and every open write with `canceled`, whoever invalidated the buffer.
Trusted boundary: none
-/
import CommonRpc.Proofs.MemBuffer

namespace CommonRpc

/-- The write that was completed, with whatever result. -/
def MemCompletion.writeMessage : MemCompletion → Option Message
  | .write message _ => some message
  | .read _ _ _ => none

namespace MemBuffer

open Lib

def completedWrites (s : MemBuffer) : List Message :=
  s.completions.filterMap MemCompletion.writeMessage

/-- The writes that were issued and are not completed: their task has not run. -/
def openWrites (s : MemBuffer) : List Message := s.writeStrand.map WriteTask.message

/-- The writes in the order they were called. -/
def writeTurns (s : MemBuffer) : List Message := s.completedWrites ++ s.openWrites

/-! ### While the buffer is valid -/

/-- What holds of the operations of a valid buffer. -/
structure Posted (s : MemBuffer) : Prop where
  started : ∀ task ∈ s.readStrand, task.startedWhileValid = true
  writesOnce : s.writeTurns.Pairwise (·.writeId < ·.writeId)
  writesCalled : ∀ message ∈ s.writeTurns, message.writeId < s.writeCalls.length

theorem posted_init : Posted {} := by
  constructor <;> simp [writeTurns, completedWrites, openWrites]

theorem completedWrites_logged {s t : MemBuffer} {done : MemCompletion}
    (logged : t.completions = s.completions ++ [done]) :
    t.completedWrites = s.completedWrites ++ done.writeMessage.toList := by
  cases h : done.writeMessage <;> simp [completedWrites, logged, h]

/-- A move adds the write of a new call at the end of the turns, or leaves the turns as they are. -/
theorem Move.writeTurns_cases {s t : MemBuffer} {e : Event} (moved : Move s t e) :
    (∃ message, message.writeId = s.writeCalls.length ∧ t.writeTurns = s.writeTurns ++ [message] ∧
        t.writeCalls.length = s.writeCalls.length + 1) ∨
      (t.writeTurns = s.writeTurns ∧ t.writeCalls = s.writeCalls) := by
  cases moved.writeSide with
  | called task fresh calls posted log =>
      refine .inl ⟨task.message, fresh, ?_, ?_⟩
      · simp [writeTurns, completedWrites, openWrites, log, posted]
      · simp [calls]
  | wrote task result head logged calls =>
      refine .inr ⟨?_, calls⟩
      simp [writeTurns, openWrites, completedWrites_logged logged, head, MemCompletion.writeMessage]
  | aside log strand calls =>
      refine .inr ⟨?_, calls⟩
      rcases log with log | ⟨id, result, message, logged⟩
      · simp [writeTurns, completedWrites, openWrites, log, strand]
      · simp [writeTurns, openWrites, completedWrites_logged logged, MemCompletion.writeMessage, strand]

/-- Only `read_async` adds a task to the read strand. -/
theorem Move.readStrand_subset {s t : MemBuffer} {e : Event} (moved : Move s t e)
    (notCalled : ∀ timeout, e ≠ .readAsync timeout) : t.readStrand ⊆ s.readStrand := by
  cases moved with
  | writeCalled task fresh calls posted same => exact same.2.2.1 ▸ List.Subset.refl _
  | readCalled task fresh calls posted same => exact absurd rfl (notCalled _)
  | wrote task stored result idle head agrees buffer logged same =>
      exact same.2.1 ▸ List.Subset.refl _
  | handed waiting message busy promises buffer logged same => exact same.1 ▸ List.Subset.refl _
  | resolvedNothing busy none same => exact same.2.2.1 ▸ List.Subset.refl _
  | served task message head buffer logged same => exact head ▸ List.subset_cons_self _ _
  | queued task waiting head answers empty promises same => exact head ▸ List.subset_cons_self _ _
  | timedOut waiting member promises logged same => exact same.2.1 ▸ List.Subset.refl _
  | silent timers same => exact same.2.2.1 ▸ List.Subset.refl _

/-- A read posted while the buffer is valid remembers that it was. -/
theorem started_step {s t : MemBuffer} {e : Event} (validAfter : t.isValid = true)
    (stepped : s.step e = some t) (before : ∀ task ∈ s.readStrand, task.startedWhileValid = true) :
    ∀ task ∈ t.readStrand, task.startedWhileValid = true := by
  cases e with
  | readAsync timeout =>
      cases stepped
      intro task member
      rcases List.mem_append.mp member with old | new
      · exact before task old
      · rw [List.mem_singleton.mp new]
        exact validAfter
  | _ =>
      intro task member
      exact before task ((step_move validAfter stepped).readStrand_subset (by simp) member)

theorem posted_step {s t : MemBuffer} {e : Event} (validAfter : t.isValid = true)
    (stepped : s.step e = some t) (before : Posted s) : Posted t := by
  have started := started_step validAfter stepped before.started
  rcases (step_move validAfter stepped).writeTurns_cases with
    ⟨message, fresh, turns, calls⟩ | ⟨turns, calls⟩
  · refine ⟨started, ?_, ?_⟩
    · rw [turns, List.pairwise_append]
      refine ⟨before.writesOnce, List.pairwise_singleton _ _, ?_⟩
      intro old oldMember new newMember
      rw [List.mem_singleton.mp newMember, fresh]
      exact before.writesCalled old oldMember
    · intro other member
      rw [turns] at member
      rw [calls]
      rcases List.mem_append.mp member with old | new
      · exact Nat.lt_succ_of_lt (before.writesCalled other old)
      · rw [List.mem_singleton.mp new, fresh]
        exact Nat.lt_succ_self _
  · refine ⟨started, turns ▸ before.writesOnce, ?_⟩
    rw [turns, calls]
    exact before.writesCalled

/-- Every state reached by a buffer that is still valid has its operations posted in order. -/
theorem run_posted {s : MemBuffer} {es : List Event} (ran : machine.run {} es = some s)
    (valid : s.isValid = true) : Posted s := by
  apply Machine.run_invariant (P := fun u => u.isValid = true → Posted u) ?_ (fun _ => posted_init) ran
    valid
  intro before e after posted stepped validAfter
  exact posted_step validAfter stepped (posted (isValid_of_step stepped validAfter))

/-! ### Once the buffer is invalid -/

/-- What one step does to a buffer that is invalid before it. -/
inductive Drain (s t : MemBuffer) : Prop where
  /-- `write_async` fails at once. -/
  | writeRefused (message : Message) (fresh : message.writeId = s.writeCalls.length)
      (calls : s.writeCalls.length ≤ t.writeCalls.length)
      (logged : t.completions = s.completions ++ [.write message .failed])
      (same : t.readStrand = s.readStrand ∧ t.writeStrand = s.writeStrand ∧
        t.readCalls = s.readCalls)
  /-- `read_async` posts a task that knows it came too late. -/
  | readRefused (task : ReadTask) (fresh : task.id = s.readCalls)
      (calls : s.readCalls ≤ t.readCalls) (posted : t.readStrand = s.readStrand ++ [task])
      (same : t.writeStrand = s.writeStrand ∧ t.writeCalls = s.writeCalls ∧
        t.completions = s.completions)
  /-- `write_impl` cancels the write. -/
  | writeDropped (task : WriteTask) (head : s.writeStrand = task :: t.writeStrand)
      (logged : t.completions = s.completions ++ [.write task.message .canceled])
      (same : t.readStrand = s.readStrand ∧ t.readCalls = s.readCalls ∧ t.writeCalls = s.writeCalls)
  /-- `read_impl` completes the read with what the invalidation chose. -/
  | readDropped (task : ReadTask) (head : s.readStrand = task :: t.readStrand)
      (logged : t.completions = s.completions ++ [.read task.id
        (if task.startedWhileValid then s.readInvalidationResult else .failed) none])
      (same : t.writeStrand = s.writeStrand ∧ t.readCalls = s.readCalls ∧
        t.writeCalls = s.writeCalls)
  | silent
      (same : t.readStrand = s.readStrand ∧ t.writeStrand = s.writeStrand ∧
        t.readCalls = s.readCalls ∧ t.writeCalls = s.writeCalls ∧ t.completions = s.completions)

/-- A buffer after its invalidation: nothing waits in it, and what reads complete with is fixed. -/
structure Closed (result : PipeOpRes) (s : MemBuffer) : Prop where
  invalid : s.isValid = false
  readResult : s.readInvalidationResult = result
  noneWaits : s.readPromises = []

/-- Every step of an invalid buffer drains it, and the buffer stays as it was closed. -/
theorem step_drain {s t : MemBuffer} {e : Event} {result : PipeOpRes} (closed : Closed result s)
    (stepped : s.step e = some t) : Drain s t ∧ Closed result t := by
  rcases closed with ⟨invalid, readResult, noneWaits⟩
  cases e with
  | writeAsync data timeout now =>
      cases stepped
      refine ⟨.writeRefused { writeId := s.writeCalls.length, data := data } rfl ?_ ?_ ?_, ?_⟩
      · simp [writeAsync, complete, invalid]
      · simp [writeAsync, complete, invalid]
      · simp [writeAsync, complete, invalid]
      · constructor <;> simp [writeAsync, complete, invalid, readResult, noneWaits]
  | readAsync timeout =>
      cases stepped
      refine ⟨.readRefused _ rfl ?_ rfl ⟨rfl, rfl, rfl⟩, invalid, readResult, noneWaits⟩
      exact Nat.le_succ _
  | writeImpl now pushThrows =>
      simp only [step] at stepped
      split at stepped
      · rename_i task tasks idle head
        cases stepped
        simp only [writeImpl, invalid, Bool.not_false, if_true]
        exact ⟨.writeDropped task head rfl ⟨rfl, rfl, rfl⟩, rfl, readResult, noneWaits⟩
      · cases stepped
  | resolveReadPromise =>
      simp only [step] at stepped
      split at stepped
      · cases stepped
        simp only [resolveReadPromise, noneWaits]
        exact ⟨.silent ⟨rfl, rfl, rfl, rfl, rfl⟩, invalid, readResult, rfl⟩
      · cases stepped
  | readImpl =>
      simp only [step] at stepped
      split at stepped
      · rename_i task tasks head
        cases stepped
        simp only [readImpl, invalid, Bool.not_false, if_true]
        exact ⟨.readDropped task head rfl ⟨rfl, rfl, rfl⟩, rfl, readResult, noneWaits⟩
      · cases stepped
  | timerExpires id =>
      rcases Option.map_eq_some_iff.mp stepped with ⟨timer, _, rfl⟩
      exact ⟨.silent ⟨rfl, rfl, rfl, rfl, rfl⟩, invalid, readResult, noneWaits⟩
  | timerHandler id =>
      rcases Option.map_eq_some_iff.mp stepped with ⟨⟨timer, callback⟩, _, rfl⟩
      cases callback with
      | none => exact ⟨.silent ⟨rfl, rfl, rfl, rfl, rfl⟩, invalid, readResult, noneWaits⟩
      | some promiseId =>
          simp only [timeoutCallback, noneWaits, List.find?_nil]
          exact ⟨.silent ⟨rfl, rfl, rfl, rfl, rfl⟩, invalid, readResult, rfl⟩
  | invalidate cancelRead =>
      cases stepped
      simp only [invalidate, invalid, Bool.not_false, if_true]
      exact ⟨.silent ⟨rfl, rfl, rfl, rfl, rfl⟩, invalid, readResult, noneWaits⟩

/-- The read is completed with this result, or will be when its posted task runs; no other result was
    given to it. -/
structure ReadSettles (s : MemBuffer) (id : Nat) (result : PipeOpRes) : Prop where
  settled : id ∈ s.readStrand.map ReadTask.id ∨ .read id result none ∈ s.completions
  only : ∀ other message, .read id other message ∈ s.completions → other = result

/-- The same for a write. -/
structure WriteSettles (s : MemBuffer) (write : Message) (result : PipeOpRes) : Prop where
  settled : write ∈ s.openWrites ∨ .write write result ∈ s.completions
  only : ∀ other, .write write other ∈ s.completions → other = result

section Settles

variable {s t : MemBuffer} {id : Nat} {write : Message} {result : PipeOpRes}

/-- A step that logs a completion of another operation and keeps the read strand. -/
theorem ReadSettles.frame {done : List MemCompletion} (before : ReadSettles s id result)
    (strand : s.readStrand ⊆ t.readStrand) (logged : t.completions = s.completions ++ done)
    (other : ∀ result message, .read id result message ∉ done) : ReadSettles t id result := by
  constructor
  · rcases before.settled with posted | completed
    · exact .inl (List.map_subset _ strand posted)
    · exact .inr (logged ▸ List.mem_append_left _ completed)
  · intro code message member
    rw [logged] at member
    rcases List.mem_append.mp member with old | new
    · exact before.only code message old
    · exact absurd new (other code message)

theorem WriteSettles.frame {done : List MemCompletion} (before : WriteSettles s write result)
    (strand : t.writeStrand = s.writeStrand) (logged : t.completions = s.completions ++ done)
    (other : ∀ result, .write write result ∉ done) : WriteSettles t write result := by
  constructor
  · rcases before.settled with posted | completed
    · exact .inl (by simpa only [openWrites, strand] using posted)
    · exact .inr (logged ▸ List.mem_append_left _ completed)
  · intro code member
    rw [logged] at member
    rcases List.mem_append.mp member with old | new
    · exact before.only code old
    · exact absurd new (other code)

/-- The task of a read runs and gives it its result. -/
theorem ReadSettles.dropped {task : ReadTask} {code : PipeOpRes} (before : ReadSettles s id result)
    (head : s.readStrand = task :: t.readStrand)
    (logged : t.completions = s.completions ++ [.read task.id code none])
    (mine : task.id = id → code = result) : ReadSettles t id result := by
  constructor
  · rcases before.settled with posted | completed
    · rw [head, List.map_cons, List.mem_cons] at posted
      rcases posted with now | later
      · rw [logged, mine now.symm, now]
        exact .inr (List.mem_append_right _ (List.mem_singleton_self _))
      · exact .inl later
    · exact .inr (logged ▸ List.mem_append_left _ completed)
  · intro other message member
    rw [logged] at member
    rcases List.mem_append.mp member with old | new
    · exact before.only other message old
    · obtain ⟨sameRead, sameCode, _⟩ := MemCompletion.read.inj (List.mem_singleton.mp new)
      rw [sameCode]
      exact mine sameRead.symm

/-- The task of a write runs and gives it its result. -/
theorem WriteSettles.dropped {task : WriteTask} (before : WriteSettles s write result)
    (head : s.writeStrand = task :: t.writeStrand)
    (logged : t.completions = s.completions ++ [.write task.message result]) :
    WriteSettles t write result := by
  constructor
  · rcases before.settled with posted | completed
    · rw [openWrites, head, List.map_cons, List.mem_cons] at posted
      rcases posted with now | later
      · rw [logged, now]
        exact .inr (List.mem_append_right _ (List.mem_singleton_self _))
      · exact .inl later
    · exact .inr (logged ▸ List.mem_append_left _ completed)
  · intro other member
    rw [logged] at member
    rcases List.mem_append.mp member with old | new
    · exact before.only other old
    · exact (MemCompletion.write.inj (List.mem_singleton.mp new)).2

end Settles

/-- Where the operations open in `before`, the last valid state, are in the closed buffer `s`. -/
structure Settled (before : MemBuffer) (result : PipeOpRes) (s : MemBuffer) : Prop
    extends Closed result s where
  readsCalled : ∀ id ∈ before.openReads, id < s.readCalls
  writesCalled : ∀ write ∈ before.openWrites, write.writeId < s.writeCalls.length
  started : ∀ task ∈ s.readStrand, task.id ∈ before.openReads → task.startedWhileValid = true
  reads : ∀ id ∈ before.openReads, ReadSettles s id result
  writes : ∀ write ∈ before.openWrites, WriteSettles s write .canceled

/-- An operation that is open has not been completed. -/
theorem open_not_completed {s : MemBuffer} (consistent : Consistent s) (posted : Posted s) :
    (∀ id ∈ s.openReads, ∀ result message, .read id result message ∉ s.completions) ∧
      ∀ write ∈ s.openWrites, ∀ result, .write write result ∉ s.completions := by
  constructor
  · intro id opened result message member
    have completed : id ∈ s.completedReads :=
      List.mem_filterMap.mpr ⟨_, member, rfl⟩
    exact (List.nodup_append.mp consistent.readsOnce).2.2 id completed id opened rfl
  · intro write opened result member
    have completed : write ∈ s.completedWrites :=
      List.mem_filterMap.mpr ⟨_, member, rfl⟩
    have earlier := (List.pairwise_append.mp posted.writesOnce).2.2 write completed write opened
    exact Nat.lt_irrefl _ earlier

/-- Invalidating a valid buffer completes the waiting reads and leaves the posted tasks to run. -/
theorem settled_invalidate {s : MemBuffer} {cancelRead : Bool} (valid : s.isValid = true)
    (consistent : Consistent s) (posted : Posted s) :
    Settled s (if cancelRead then .canceled else .failed) (s.invalidate cancelRead) := by
  obtain ⟨readsOpen, writesOpen⟩ := open_not_completed consistent posted
  simp only [invalidate, valid, Bool.not_true, Bool.false_eq_true, if_false]
  refine ⟨⟨rfl, rfl, rfl⟩, ?_, ?_, ?_, ?_, ?_⟩
  · intro id member
    exact consistent.readsCalled id (List.mem_append_right _ member)
  · intro write member
    exact posted.writesCalled write (List.mem_append_right _ member)
  · intro task member _
    exact posted.started task member
  · intro id member
    constructor
    · rcases List.mem_append.mp member with waits | strand
      · obtain ⟨waiting, inPromises, rfl⟩ := List.mem_map.mp waits
        exact .inr (List.mem_append_right _ (List.mem_map.mpr ⟨waiting, inPromises, rfl⟩))
      · exact .inl strand
    · intro other message logged
      rcases List.mem_append.mp logged with old | new
      · exact absurd old (readsOpen id member other message)
      · obtain ⟨waiting, _, same⟩ := List.mem_map.mp new
        exact (MemCompletion.read.inj same).2.1.symm
  · intro write member
    refine ⟨.inl member, ?_⟩
    intro other logged
    rcases List.mem_append.mp logged with old | new
    · exact absurd old (writesOpen write member other)
    · obtain ⟨waiting, _, same⟩ := List.mem_map.mp new
      cases same

/-- Every later step keeps the operations on their way to these results. -/
theorem settled_step {before s t : MemBuffer} {e : Event} {result : PipeOpRes}
    (settled : Settled before result s) (stepped : s.step e = some t) :
    Settled before result t := by
  obtain ⟨drained, closed⟩ := step_drain settled.toClosed stepped
  cases drained with
  | writeRefused message fresh calls logged same =>
      obtain ⟨strand, writeStrand, readCalls⟩ := same
      refine ⟨closed, readCalls ▸ settled.readsCalled, ?_, strand ▸ settled.started, ?_, ?_⟩
      · intro write member
        exact Nat.lt_of_lt_of_le (settled.writesCalled write member) calls
      · intro id member
        apply (settled.reads id member).frame (strand ▸ List.Subset.refl _) logged
        simp
      · intro write member
        apply (settled.writes write member).frame writeStrand logged
        intro code new
        obtain ⟨rfl, _⟩ := MemCompletion.write.inj (List.mem_singleton.mp new)
        exact Nat.ne_of_lt (settled.writesCalled write member) fresh
  | readRefused task fresh calls posted same =>
      obtain ⟨writeStrand, writeCalls, log⟩ := same
      refine ⟨closed, ?_, writeCalls ▸ settled.writesCalled, ?_, ?_, ?_⟩
      · intro id member
        exact Nat.lt_of_lt_of_le (settled.readsCalled id member) calls
      · intro other member mine
        rw [posted] at member
        rcases List.mem_append.mp member with old | new
        · exact settled.started other old mine
        · rw [List.mem_singleton.mp new, fresh] at mine
          exact absurd (settled.readsCalled _ mine) (Nat.lt_irrefl _)
      · intro id member
        apply (settled.reads id member).frame (posted ▸ List.subset_append_left _ _)
          (log.trans (List.append_nil _).symm)
        simp
      · intro write member
        apply (settled.writes write member).frame writeStrand (log.trans (List.append_nil _).symm)
        simp
  | writeDropped task head logged same =>
      obtain ⟨strand, readCalls, writeCalls⟩ := same
      refine ⟨closed, readCalls ▸ settled.readsCalled, writeCalls ▸ settled.writesCalled,
        strand ▸ settled.started, ?_, ?_⟩
      · intro id member
        apply (settled.reads id member).frame (strand ▸ List.Subset.refl _) logged
        simp
      · intro write member
        exact (settled.writes write member).dropped head logged
  | readDropped task head logged same =>
      obtain ⟨writeStrand, readCalls, writeCalls⟩ := same
      refine ⟨closed, readCalls ▸ settled.readsCalled, writeCalls ▸ settled.writesCalled, ?_, ?_, ?_⟩
      · intro other member mine
        exact settled.started other (head ▸ List.mem_cons_of_mem _ member) mine
      · intro id member
        apply (settled.reads id member).dropped head logged
        intro mine
        have started := settled.started task (head ▸ List.mem_cons_self) (mine ▸ member)
        rw [if_pos started, settled.readResult]
      · intro write member
        apply (settled.writes write member).frame writeStrand logged
        simp
  | silent same =>
      obtain ⟨strand, writeStrand, readCalls, writeCalls, log⟩ := same
      refine ⟨closed, readCalls ▸ settled.readsCalled, writeCalls ▸ settled.writesCalled,
        strand ▸ settled.started, ?_, ?_⟩
      · intro id member
        apply (settled.reads id member).frame (strand ▸ List.Subset.refl _)
          (log.trans (List.append_nil _).symm)
        simp
      · intro write member
        apply (settled.writes write member).frame writeStrand (log.trans (List.append_nil _).symm)
        simp

end MemBuffer

end CommonRpc
