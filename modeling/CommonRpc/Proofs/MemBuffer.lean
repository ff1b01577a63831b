/-
Module: CommonRpc.Proofs.MemBuffer
Purpose: No message is lost, duplicated or invented by `mem_buffer`, and no reader sleeps beside a stored
  message, over every interleaving of its steps. `Move` says once what a step of a buffer that is valid
  afterwards can do to the queues and the log; the invariant is then checked per move. Waiting reads are not
  always served first come, first served: a read that runs between `write_impl` and `resolve_read_promise`
  takes the message an older read was waiting for. `servesInTurn` is the condition under which they are.
Trusted boundary: none
-/
import CommonRpc.Core.MemBuffer
import Mathlib.Data.List.Nodup
import Mathlib.Data.List.Pairwise

namespace CommonRpc

namespace MemCompletion

/-- The message of a write that reported success. -/
def accepted : MemCompletion → Option Message
  | .write message .success => some message
  | _ => none

/-- The read and the message of a read that reported success. -/
def delivered : MemCompletion → Option (Nat × Message)
  | .read id .success (some message) => some (id, message)
  | _ => none

/-- The read that was completed, with whatever result. -/
def readId : MemCompletion → Option Nat
  | .read id _ _ => some id
  | .write _ _ => none

end MemCompletion

namespace MemBuffer

open Lib

/-- The messages whose write reported success, in the order the writes ran. -/
def accepted (s : MemBuffer) : List Message := s.completions.filterMap MemCompletion.accepted

/-- The successful reads with the message each got, in the order they were served. -/
def delivered (s : MemBuffer) : List (Nat × Message) :=
  s.completions.filterMap MemCompletion.delivered

/-- The reads that were completed, with whatever result. -/
def completedReads (s : MemBuffer) : List Nat := s.completions.filterMap MemCompletion.readId

/-- The reads that were issued and are not completed: those waiting for a message, then those whose task
    has not run. -/
def openReads (s : MemBuffer) : List Nat :=
  s.readPromises.map ReadPromiseData.promise ++ s.readStrand.map ReadTask.id

/-- The accepted messages, then those of the writes whose task has not run. -/
def writes (s : MemBuffer) : List Message := s.accepted ++ s.writeStrand.map WriteTask.message

/-! ### What a step can do -/

/-- What one step does to the queues of a buffer that is still valid after it. The moves leave out what
    no later argument needs: the timers, the promise ids and the clock. -/
inductive Move (s t : MemBuffer) : Event → Prop where
  /-- `write_async` posts its task. -/
  | writeCalled {data : Buffer} {timeout : Option Nat} {now : Int} (task : WriteTask)
      (fresh : task.message.writeId = s.writeCalls.length)
      (calls : t.writeCalls = s.writeCalls ++ [task.message.data])
      (posted : t.writeStrand = s.writeStrand ++ [task])
      (same : t.buffer = s.buffer ∧ t.readPromises = s.readPromises ∧ t.readStrand = s.readStrand ∧
        t.resolving = s.resolving ∧ t.readCalls = s.readCalls ∧ t.completions = s.completions) :
      Move s t (.writeAsync data timeout now)
  /-- `read_async` posts its task. -/
  | readCalled {timeout : Option Nat} (task : ReadTask) (fresh : task.id = s.readCalls)
      (calls : t.readCalls = s.readCalls + 1) (posted : t.readStrand = s.readStrand ++ [task])
      (same : t.buffer = s.buffer ∧ t.readPromises = s.readPromises ∧
        t.writeStrand = s.writeStrand ∧ t.resolving = s.resolving ∧ t.writeCalls = s.writeCalls ∧
        t.completions = s.completions) :
      Move s t (.readAsync timeout)
  /-- `write_impl` stores the message, or completes the write without storing anything. -/
  | wrote {now : Int} {pushThrows : Bool} (task : WriteTask) (stored : Bool) (result : PipeOpRes)
      (idle : s.resolving = false) (head : s.writeStrand = task :: t.writeStrand)
      (agrees : stored = true ↔ result = .success)
      (buffer : t.buffer = s.buffer ++
        (if stored then [task.message] else []))
      (logged : t.completions = s.completions ++ [.write task.message result])
      (same : t.readPromises = s.readPromises ∧ t.readStrand = s.readStrand ∧ t.resolving = true ∧
        t.writeCalls = s.writeCalls ∧ t.readCalls = s.readCalls) :
      Move s t (.writeImpl now pushThrows)
  /-- `resolve_read_promise` hands the oldest message to the oldest waiting read. -/
  | handed (waiting : ReadPromiseData) (message : Message) (busy : s.resolving = true)
      (promises : s.readPromises = waiting :: t.readPromises)
      (buffer : s.buffer = message :: t.buffer)
      (logged : t.completions =
        s.completions ++ [.read waiting.promise .success (some message)])
      (same : t.readStrand = s.readStrand ∧ t.writeStrand = s.writeStrand ∧ t.resolving = false ∧
        t.writeCalls = s.writeCalls ∧ t.readCalls = s.readCalls) :
      Move s t .resolveReadPromise
  /-- `resolve_read_promise` finds no waiting read or no message. -/
  | resolvedNothing (busy : s.resolving = true) (none : s.readPromises = [] ∨ s.buffer = [])
      (same : t.buffer = s.buffer ∧ t.readPromises = s.readPromises ∧ t.readStrand = s.readStrand ∧
        t.writeStrand = s.writeStrand ∧ t.resolving = false ∧ t.writeCalls = s.writeCalls ∧
        t.readCalls = s.readCalls ∧ t.completions = s.completions) :
      Move s t .resolveReadPromise
  /-- `read_impl` finds a message. -/
  | served (task : ReadTask) (message : Message) (head : s.readStrand = task :: t.readStrand)
      (buffer : s.buffer = message :: t.buffer)
      (logged : t.completions = s.completions ++ [.read task.id .success (some message)])
      (same : t.readPromises = s.readPromises ∧ t.writeStrand = s.writeStrand ∧
        t.resolving = s.resolving ∧ t.writeCalls = s.writeCalls ∧ t.readCalls = s.readCalls) :
      Move s t .readImpl
  /-- `read_impl` finds no message and lets the read wait. -/
  | queued (task : ReadTask) (waiting : ReadPromiseData)
      (head : s.readStrand = task :: t.readStrand) (answers : waiting.promise = task.id)
      (empty : s.buffer = []) (promises : t.readPromises = s.readPromises ++ [waiting])
      (same : t.buffer = s.buffer ∧ t.writeStrand = s.writeStrand ∧ t.resolving = s.resolving ∧
        t.writeCalls = s.writeCalls ∧ t.readCalls = s.readCalls ∧ t.completions = s.completions) :
      Move s t .readImpl
  /-- A timer callback completes its waiting read with `timeout`. -/
  | timedOut {timerId : Nat} (waiting : ReadPromiseData) (member : waiting ∈ s.readPromises)
      (promises : t.readPromises = s.readPromises.filter fun other => other.id ≠ waiting.id)
      (logged : t.completions = s.completions ++ [.read waiting.promise .timeout none])
      (same : t.buffer = s.buffer ∧ t.readStrand = s.readStrand ∧ t.writeStrand = s.writeStrand ∧
        t.resolving = s.resolving ∧ t.writeCalls = s.writeCalls ∧ t.readCalls = s.readCalls) :
      Move s t (.timerHandler timerId)
  /-- Only the timers change. -/
  | silent {timerId : Nat} {e : Event} (timers : e = .timerExpires timerId ∨ e = .timerHandler timerId)
      (same : t.buffer = s.buffer ∧ t.readPromises = s.readPromises ∧
        t.readStrand = s.readStrand ∧ t.writeStrand = s.writeStrand ∧ t.resolving = s.resolving ∧
        t.writeCalls = s.writeCalls ∧ t.readCalls = s.readCalls ∧ t.completions = s.completions) :
      Move s t e

/-- The timeout callback either answers a waiting read or finds it gone. -/
theorem timeoutCallback_move (s : MemBuffer) (timer : MultipleTimer Nat) (id timerId : Nat) :
    Move s ({ s with timer := timer }.timeoutCallback id) (.timerHandler timerId) := by
  cases found : s.readPromises.find? fun waiting => waiting.id = id with
  | none =>
      apply Move.silent (.inr rfl)
      simp [timeoutCallback, found]
  | some waiting =>
      have member : waiting ∈ s.readPromises := List.mem_of_find?_eq_some found
      have same : waiting.id = id := by simpa using List.find?_some found
      subst same
      apply Move.timedOut waiting member <;> simp [timeoutCallback, found, complete]

/-- The write task's first critical section, on a buffer that is valid. -/
theorem writeImpl_move (s : MemBuffer) {task : WriteTask} {tasks : List WriteTask} {now : Int}
    {pushThrows : Bool} (valid : s.isValid = true) (idle : s.resolving = false)
    (head : s.writeStrand = task :: tasks) :
    Move s ({ s with writeStrand := tasks, resolving := true }.writeImpl task now pushThrows)
      (.writeImpl now pushThrows) := by
  unfold writeImpl
  simp only [valid, Bool.not_true, Bool.false_eq_true, if_false]
  split
  · apply Move.wrote task false .timeout idle <;> simp [head, complete]
  · split
    · apply Move.wrote task false .failed idle <;> simp [head, complete]
    · apply Move.wrote task true .success idle <;> simp [head, complete]

/-- The write task's second critical section. -/
theorem resolveReadPromise_move (s : MemBuffer) (busy : s.resolving = true) :
    Move s { s with resolving := false }.resolveReadPromise .resolveReadPromise := by
  cases promises : s.readPromises with
  | nil =>
      apply Move.resolvedNothing busy (.inl promises)
      simp [resolveReadPromise, promises]
  | cons waiting rest =>
      cases buffer : s.buffer with
      | nil =>
          apply Move.resolvedNothing busy (.inr buffer)
          simp [resolveReadPromise, promises, buffer]
      | cons message messages =>
          apply Move.handed waiting message busy <;>
            simp [resolveReadPromise, promises, buffer, complete]

/-- The read task, on a buffer that is valid. -/
theorem readImpl_move (s : MemBuffer) {task : ReadTask} {tasks : List ReadTask}
    (valid : s.isValid = true) (head : s.readStrand = task :: tasks) :
    Move s ({ s with readStrand := tasks }.readImpl task) .readImpl := by
  unfold readImpl
  simp only [valid, Bool.not_true, Bool.false_eq_true, if_false]
  cases buffer : s.buffer with
  | nil =>
      exact Move.queued task
        { id := s.nextReadPromiseId
          timerId := task.timeout.map fun _ => s.timer.nextId
          promise := task.id } head rfl buffer rfl ⟨buffer.symm, rfl, rfl, rfl, rfl, rfl⟩
  | cons message messages =>
      apply Move.served task message <;> simp [head, buffer, complete]

/-- No step makes an invalid buffer valid again. -/
theorem isValid_of_step {s t : MemBuffer} {e : Event} (stepped : s.step e = some t)
    (valid : t.isValid = true) : s.isValid = true := by
  by_contra invalid
  simp only [Bool.not_eq_true] at invalid
  cases e with
  | writeAsync data timeout now =>
      cases stepped
      simp [writeAsync, complete, invalid] at valid
  | readAsync timeout =>
      cases stepped
      simp [readAsync, invalid] at valid
  | writeImpl now pushThrows =>
      simp only [step] at stepped
      split at stepped
      · cases stepped
        simp [writeImpl, complete, invalid] at valid
      · cases stepped
  | resolveReadPromise =>
      simp only [step] at stepped
      split at stepped
      · cases stepped
        simp only [resolveReadPromise] at valid
        split at valid <;> simp [complete, invalid] at valid
      · cases stepped
  | readImpl =>
      simp only [step] at stepped
      split at stepped
      · cases stepped
        simp [readImpl, complete, invalid] at valid
      · cases stepped
  | timerExpires id =>
      rcases Option.map_eq_some_iff.mp stepped with ⟨timer, _, rfl⟩
      simp [invalid] at valid
  | timerHandler id =>
      rcases Option.map_eq_some_iff.mp stepped with ⟨⟨timer, callback⟩, _, rfl⟩
      cases callback with
      | none => simp [invalid] at valid
      | some promiseId =>
          simp only [timeoutCallback] at valid
          split at valid <;> simp [complete, invalid] at valid
  | invalidate cancelRead =>
      cases stepped
      simp [invalidate, invalid] at valid

/-- Every step of a buffer that is valid after it is one of the moves. -/
theorem step_move {s t : MemBuffer} {e : Event} (validAfter : t.isValid = true)
    (stepped : s.step e = some t) : Move s t e := by
  have validBefore : s.isValid = true := isValid_of_step stepped validAfter
  cases e with
  | writeAsync data timeout now =>
      cases stepped
      exact Move.writeCalled
        { message := { writeId := s.writeCalls.length, data := data }
          timeoutPoint := timeout.map fun milliseconds => now + milliseconds * 1000000 }
        rfl (by simp [writeAsync, validBefore]) (by simp [writeAsync, validBefore])
        (by simp [writeAsync, validBefore])
  | readAsync timeout =>
      cases stepped
      exact Move.readCalled
        { id := s.readCalls, timeout := timeout, startedWhileValid := s.isValid } rfl rfl rfl
        ⟨rfl, rfl, rfl, rfl, rfl, rfl⟩
  | writeImpl now pushThrows =>
      simp only [step] at stepped
      split at stepped
      · rename_i task tasks idle head
        cases stepped
        exact writeImpl_move s validBefore idle head
      · cases stepped
  | resolveReadPromise =>
      simp only [step] at stepped
      split at stepped
      · rename_i busy
        cases stepped
        exact resolveReadPromise_move s busy
      · cases stepped
  | readImpl =>
      simp only [step] at stepped
      split at stepped
      · rename_i task tasks head
        cases stepped
        exact readImpl_move s validBefore head
      · cases stepped
  | timerExpires id =>
      rcases Option.map_eq_some_iff.mp stepped with ⟨timer, _, rfl⟩
      exact Move.silent (.inl rfl) ⟨rfl, rfl, rfl, rfl, rfl, rfl, rfl, rfl⟩
  | timerHandler id =>
      rcases Option.map_eq_some_iff.mp stepped with ⟨⟨timer, callback⟩, _, rfl⟩
      cases callback with
      | none => exact Move.silent (.inr rfl) ⟨rfl, rfl, rfl, rfl, rfl, rfl, rfl, rfl⟩
      | some promiseId => exact timeoutCallback_move s timer promiseId id
  | invalidate cancelRead =>
      cases stepped
      simp [invalidate, validBefore] at validAfter

/-! ### The ids of the waiting reads -/

/-- The waiting reads have different ids, and the next id is new. -/
def PromiseIds (s : MemBuffer) : Prop :=
  (s.readPromises.map ReadPromiseData.id).Nodup ∧ ∀ waiting ∈ s.readPromises, waiting.id < s.nextReadPromiseId

section PromiseIds

variable {s t : MemBuffer}

theorem PromiseIds.sub (ids : PromiseIds s) (next : t.nextReadPromiseId = s.nextReadPromiseId)
    (sub : t.readPromises.Sublist s.readPromises) : PromiseIds t :=
  ⟨ids.1.sublist (sub.map _), fun waiting member => next ▸ ids.2 waiting (sub.subset member)⟩

theorem PromiseIds.readImpl (ids : PromiseIds s) (task : ReadTask) : PromiseIds (s.readImpl task) := by
  simp only [MemBuffer.readImpl]
  split
  · exact ids.sub rfl (List.Sublist.refl _)
  · split
    · exact ids.sub rfl (List.Sublist.refl _)
    · refine ⟨?_, ?_⟩
      · simp only [List.map_append, List.map_cons, List.map_nil]
        refine List.nodup_append.mpr ⟨ids.1, by simp, ?_⟩
        intro old oldMember new newMember
        obtain ⟨waiting, member, rfl⟩ := List.mem_map.mp oldMember
        rw [List.mem_singleton.mp newMember]
        exact Nat.ne_of_lt (ids.2 waiting member)
      · intro waiting member
        rcases List.mem_append.mp member with old | new
        · exact Nat.lt_succ_of_lt (ids.2 waiting old)
        · rw [List.mem_singleton.mp new]
          exact Nat.lt_succ_self _

theorem step_promiseIds {e : Event} (ids : PromiseIds s) (stepped : s.step e = some t) : PromiseIds t := by
  have same {u : MemBuffer} (next : u.nextReadPromiseId = s.nextReadPromiseId)
      (promises : u.readPromises = s.readPromises) : PromiseIds u :=
    ids.sub next (promises ▸ List.Sublist.refl _)
  cases e with
  | writeAsync data timeout now =>
      cases stepped
      simp only [writeAsync]
      split <;> exact same rfl rfl
  | readAsync timeout =>
      cases stepped
      exact same rfl rfl
  | writeImpl now pushThrows =>
      simp only [step] at stepped
      split at stepped
      · cases stepped
        simp only [writeImpl]
        split
        · exact same rfl rfl
        · split
          · exact same rfl rfl
          · split <;> exact same rfl rfl
      · cases stepped
  | resolveReadPromise =>
      simp only [step] at stepped
      split at stepped
      · cases stepped
        simp only [resolveReadPromise]
        split
        · rename_i waiting promises message rest isWaiting _
          have isWaiting : s.readPromises = waiting :: promises := isWaiting
          exact ids.sub rfl (isWaiting ▸ List.sublist_cons_self waiting promises)
        · exact same rfl rfl
      · cases stepped
  | readImpl =>
      simp only [step] at stepped
      split at stepped
      · rename_i task tasks _
        cases stepped
        have kept : PromiseIds { s with readStrand := tasks } := ids
        exact kept.readImpl task
      · cases stepped
  | timerExpires id =>
      obtain ⟨timer, _, rfl⟩ := Option.map_eq_some_iff.mp stepped
      exact same rfl rfl
  | timerHandler id =>
      obtain ⟨⟨timer, callback⟩, _, rfl⟩ := Option.map_eq_some_iff.mp stepped
      cases callback with
      | none => exact same rfl rfl
      | some promiseId =>
          simp only [timeoutCallback]
          split
          · exact same rfl rfl
          · exact ids.sub rfl List.filter_sublist
  | invalidate cancelRead =>
      cases stepped
      simp only [invalidate]
      split
      · exact ids
      · exact ids.sub rfl (List.nil_sublist _)

end PromiseIds

/-! ### The invariant -/

section Logged

variable {s t : MemBuffer} {done : MemCompletion}

theorem accepted_logged (logged : t.completions = s.completions ++ [done]) :
    t.accepted = s.accepted ++ done.accepted.toList := by
  cases h : done.accepted <;> simp [accepted, logged, h]

theorem delivered_logged (logged : t.completions = s.completions ++ [done]) :
    t.delivered = s.delivered ++ done.delivered.toList := by
  cases h : done.delivered <;> simp [delivered, logged, h]

theorem completedReads_logged (logged : t.completions = s.completions ++ [done]) :
    t.completedReads = s.completedReads ++ done.readId.toList := by
  cases h : done.readId <;> simp [completedReads, logged, h]

end Logged

/-- What holds between the steps of a valid buffer. -/
structure Consistent (s : MemBuffer) : Prop where
  /-- Accepted messages are delivered or stored, in order, each once. -/
  conserved : s.accepted = s.delivered.map Prod.snd ++ s.buffer
  /-- Writes run in the order they were called. -/
  writeOrder : s.writes.Pairwise (·.writeId < ·.writeId)
  writesCalled : ∀ message ∈ s.writes, s.writeCalls[message.writeId]? = some message.data
  promiseIds : PromiseIds s
  /-- A read is completed once, or waits, or its task has still to run. -/
  reads : (s.completedReads ++ s.openReads).Perm (List.range s.readCalls)
  /-- Exactly the successful reads carry a message. -/
  carried : ∀ id result message, .read id result message ∈ s.completions →
    (result = .success ↔ message.isSome = true)
  /-- A waiting read beside a message is about to be resolved. -/
  awake : s.readPromises ≠ [] → s.buffer.length ≤ if s.resolving then 1 else 0

theorem consistent_init : Consistent {} := by
  constructor <;> simp [accepted, delivered, completedReads, openReads, writes, PromiseIds]

theorem Consistent.readsOnce {s : MemBuffer} (consistent : Consistent s) :
    (s.completedReads ++ s.openReads).Nodup :=
  consistent.reads.nodup_iff.mpr List.nodup_range

theorem Consistent.readsCalled {s : MemBuffer} (consistent : Consistent s) :
    ∀ id ∈ s.completedReads ++ s.openReads, id < s.readCalls :=
  fun _ member => List.mem_range.mp (consistent.reads.mem_iff.mp member)

/-- Taking the promise of a waiting read out of the container leaves the others. -/
theorem openReads_timedOut {s t : MemBuffer} {waiting : ReadPromiseData} (ids : PromiseIds s)
    (member : waiting ∈ s.readPromises)
    (promises : t.readPromises = s.readPromises.filter fun other => other.id ≠ waiting.id)
    (strand : t.readStrand = s.readStrand) : s.openReads.Perm (waiting.promise :: t.openReads) := by
  have others : s.readPromises.erase waiting = t.readPromises := by
    rw [promises, (List.Nodup.of_map _ ids.1).erase_eq_filter]
    apply List.filter_congr
    intro other isOther
    rw [Bool.eq_iff_iff]
    simp only [bne_iff_ne, ne_eq, decide_eq_true_eq, not_iff_not]
    exact ⟨fun same => congrArg _ same, List.inj_on_of_nodup_map ids.1 isOther member⟩
  have taken := (List.perm_cons_erase member).map ReadPromiseData.promise
  rw [others] at taken
  rw [openReads, openReads, strand]
  exact taken.append_right _

theorem Move.conserved {s t : MemBuffer} {e : Event} (moved : Move s t e)
    (before : s.accepted = s.delivered.map Prod.snd ++ s.buffer) :
    t.accepted = t.delivered.map Prod.snd ++ t.buffer := by
  -- a step that logs nothing and leaves the stored messages alone
  have unchanged : t.completions = s.completions → t.buffer = s.buffer →
      t.accepted = t.delivered.map Prod.snd ++ t.buffer := by
    intro log buffer
    simpa only [accepted, delivered, log, buffer] using before
  cases moved with
  | writeCalled task fresh calls posted same => exact unchanged same.2.2.2.2.2 same.1
  | readCalled task fresh calls posted same => exact unchanged same.2.2.2.2.2 same.1
  | wrote task stored result idle head agrees buffer logged same =>
      rw [accepted_logged logged, delivered_logged logged, before, buffer]
      cases stored with
      | false =>
          have failed : result ≠ .success := by simpa using agrees
          cases result <;> simp_all [MemCompletion.accepted, MemCompletion.delivered]
      | true =>
          have success : result = .success := agrees.mp rfl
          subst success
          simp [MemCompletion.accepted, MemCompletion.delivered]
  | handed waiting message busy promises buffer logged same =>
      rw [accepted_logged logged, delivered_logged logged, before, buffer]
      simp [MemCompletion.accepted, MemCompletion.delivered]
  | resolvedNothing busy none same => exact unchanged same.2.2.2.2.2.2.2 same.1
  | served task message head buffer logged same =>
      rw [accepted_logged logged, delivered_logged logged, before, buffer]
      simp [MemCompletion.accepted, MemCompletion.delivered]
  | queued task waiting head answers empty promises same =>
      exact unchanged same.2.2.2.2.2 same.1
  | timedOut waiting member promises logged same =>
      rw [accepted_logged logged, delivered_logged logged, before, same.1]
      simp [MemCompletion.accepted, MemCompletion.delivered]
  | silent timers same => exact unchanged same.2.2.2.2.2.2.2 same.1

/-- What a move does to the writes. -/
inductive WriteSide (s t : MemBuffer) : Prop where
  /-- A call posts its task. -/
  | called (task : WriteTask) (fresh : task.message.writeId = s.writeCalls.length)
      (calls : t.writeCalls = s.writeCalls ++ [task.message.data])
      (posted : t.writeStrand = s.writeStrand ++ [task]) (log : t.completions = s.completions)
  /-- The first task of the strand completes. -/
  | wrote (task : WriteTask) (result : PipeOpRes) (head : s.writeStrand = task :: t.writeStrand)
      (logged : t.completions = s.completions ++ [.write task.message result]) (calls : t.writeCalls = s.writeCalls)
  /-- Nothing; at most a read completes. -/
  | aside (log : t.completions = s.completions ∨
        ∃ id result message, t.completions = s.completions ++ [.read id result message])
      (strand : t.writeStrand = s.writeStrand) (calls : t.writeCalls = s.writeCalls)

theorem Move.writeSide {s t : MemBuffer} {e : Event} (moved : Move s t e) : WriteSide s t := by
  cases moved with
  | writeCalled task fresh calls posted same => exact .called task fresh calls posted same.2.2.2.2.2
  | readCalled task fresh calls posted same => exact .aside (.inl same.2.2.2.2.2) same.2.2.1 same.2.2.2.2.1
  | wrote task stored result idle head agrees buffer logged same =>
      exact .wrote task result head logged same.2.2.2.1
  | handed waiting message busy promises buffer logged same =>
      exact .aside (.inr ⟨_, _, _, logged⟩) same.2.1 same.2.2.2.1
  | resolvedNothing busy none same =>
      exact .aside (.inl same.2.2.2.2.2.2.2) same.2.2.2.1 same.2.2.2.2.2.1
  | served task message head buffer logged same =>
      exact .aside (.inr ⟨_, _, _, logged⟩) same.2.1 same.2.2.2.1
  | queued task waiting head answers empty promises same =>
      exact .aside (.inl same.2.2.2.2.2) same.2.1 same.2.2.2.1
  | timedOut waiting member promises logged same =>
      exact .aside (.inr ⟨_, _, _, logged⟩) same.2.2.1 same.2.2.2.2.1
  | silent timers same => exact .aside (.inl same.2.2.2.2.2.2.2) same.2.2.2.1 same.2.2.2.2.2.1

/-- A move adds the message of a new call at the end, or drops one, or leaves them as they are. -/
theorem Move.writes_cases {s t : MemBuffer} {e : Event} (moved : Move s t e) :
    (∃ message, message.writeId = s.writeCalls.length ∧ t.writes = s.writes ++ [message] ∧
        t.writeCalls = s.writeCalls ++ [message.data]) ∨
      (t.writes.Sublist s.writes ∧ t.writeCalls = s.writeCalls) := by
  cases moved.writeSide with
  | called task fresh calls posted log =>
      refine .inl ⟨task.message, fresh, ?_, calls⟩
      simp [MemBuffer.writes, accepted, log, posted]
  | wrote task result head logged calls =>
      refine .inr ⟨?_, calls⟩
      rw [MemBuffer.writes, MemBuffer.writes, accepted_logged logged, head]
      cases result with
      | success => simp [MemCompletion.accepted]
      | _ => simp [MemCompletion.accepted]
  | aside log strand calls =>
      refine .inr ⟨?_, calls⟩
      rcases log with log | ⟨id, result, message, logged⟩
      · simp [MemBuffer.writes, accepted, log, strand]
      · simp [MemBuffer.writes, accepted_logged logged, MemCompletion.accepted, strand]

theorem Move.writes {s t : MemBuffer} {e : Event} (moved : Move s t e)
    (sorted : s.writes.Pairwise (·.writeId < ·.writeId))
    (called : ∀ message ∈ s.writes, s.writeCalls[message.writeId]? = some message.data) :
    t.writes.Pairwise (·.writeId < ·.writeId) ∧
      ∀ message ∈ t.writes, t.writeCalls[message.writeId]? = some message.data := by
  have below : ∀ message ∈ s.writes, message.writeId < s.writeCalls.length := by
    intro message member
    exact (List.getElem?_eq_some_iff.mp (called message member)).1
  rcases moved.writes_cases with ⟨message, fresh, writes, calls⟩ | ⟨sub, calls⟩
  · rw [writes, calls]
    constructor
    · apply List.pairwise_append.mpr
      refine ⟨sorted, List.pairwise_singleton _ _, ?_⟩
      intro old oldMember new newMember
      rw [List.mem_singleton.mp newMember, fresh]
      exact below old oldMember
    · intro other member
      rcases List.mem_append.mp member with old | new
      · rw [List.getElem?_append_left (below other old)]
        exact called other old
      · rw [List.mem_singleton.mp new, fresh]
        simp
  · rw [calls]
    exact ⟨sorted.sublist sub, fun message member => called message (sub.subset member)⟩

/-- A move opens the next read, or completes one open read, or leaves the reads as they are. -/
theorem Move.reads_cases {s t : MemBuffer} {e : Event} (moved : Move s t e) (ids : PromiseIds s) :
    (t.completedReads = s.completedReads ∧ t.openReads = s.openReads ++ [s.readCalls] ∧
        t.readCalls = s.readCalls + 1) ∨
      (∃ read, s.openReads.Perm (read :: t.openReads) ∧ t.completedReads = s.completedReads ++ [read] ∧
        t.readCalls = s.readCalls) ∨
      (t.completedReads = s.completedReads ∧ t.openReads = s.openReads ∧
        t.readCalls = s.readCalls) := by
  cases moved with
  | writeCalled task fresh calls posted same =>
      rcases same with ⟨_, promises, strand, _, readCalls, log⟩
      exact .inr (.inr ⟨by simp [completedReads, log], by simp [openReads, promises, strand],
        readCalls⟩)
  | readCalled task fresh calls posted same =>
      rcases same with ⟨_, promises, _, _, _, log⟩
      exact .inl ⟨by simp [completedReads, log], by simp [openReads, promises, posted, fresh],
        calls⟩
  | wrote task stored result idle head agrees buffer logged same =>
      rcases same with ⟨promises, strand, _, _, readCalls⟩
      right
      right
      refine ⟨?_, by simp [openReads, promises, strand], readCalls⟩
      simp [completedReads_logged logged, MemCompletion.readId]
  | handed waiting message busy promises buffer logged same =>
      refine .inr (.inl ⟨waiting.promise, ?_, ?_, same.2.2.2.2⟩)
      · simp [openReads, promises, same.1]
      · simp [completedReads_logged logged, MemCompletion.readId]
  | resolvedNothing busy none same =>
      rcases same with ⟨_, promises, strand, _, _, _, readCalls, log⟩
      exact .inr (.inr ⟨by simp [completedReads, log], by simp [openReads, promises, strand],
        readCalls⟩)
  | served task message head buffer logged same =>
      refine .inr (.inl ⟨task.id, ?_, ?_, same.2.2.2.2⟩)
      · rw [openReads, openReads, same.1, head, List.map_cons]
        exact List.perm_middle
      · simp [completedReads_logged logged, MemCompletion.readId]
  | queued task waiting head answers empty promises same =>
      rcases same with ⟨_, _, _, _, readCalls, log⟩
      exact .inr (.inr ⟨by simp [completedReads, log],
        by simp [openReads, promises, head, answers], readCalls⟩)
  | timedOut waiting member promises logged same =>
      refine .inr (.inl ⟨waiting.promise, openReads_timedOut ids member promises same.2.1, ?_,
        same.2.2.2.2.2⟩)
      simp [completedReads_logged logged, MemCompletion.readId]
  | silent timers same =>
      rcases same with ⟨_, promises, strand, _, _, _, readCalls, log⟩
      exact .inr (.inr ⟨by simp [completedReads, log], by simp [openReads, promises, strand],
        readCalls⟩)

theorem Move.reads {s t : MemBuffer} {e : Event} (moved : Move s t e) (ids : PromiseIds s)
    (before : (s.completedReads ++ s.openReads).Perm (List.range s.readCalls)) :
    (t.completedReads ++ t.openReads).Perm (List.range t.readCalls) := by
  rcases moved.reads_cases ids with
    ⟨done, opened, calls⟩ | ⟨read, opened, done, calls⟩ | ⟨done, opened, calls⟩
  · rw [done, opened, calls, ← List.append_assoc, List.range_succ]
    exact before.append_right _
  · rw [done, calls, List.append_assoc, List.singleton_append]
    exact (opened.symm.append_left _).trans before
  · rw [done, opened, calls]
    exact before

theorem Move.awake {s t : MemBuffer} {e : Event} (moved : Move s t e)
    (awake : s.readPromises ≠ [] → s.buffer.length ≤ if s.resolving then 1 else 0) :
    t.readPromises ≠ [] → t.buffer.length ≤ if t.resolving then 1 else 0 := by
  have unchanged : t.buffer = s.buffer → t.readPromises = s.readPromises →
      t.resolving = s.resolving →
        t.readPromises ≠ [] → t.buffer.length ≤ if t.resolving then 1 else 0 := by
    intro buffer promises resolving
    rwa [buffer, promises, resolving]
  cases moved with
  | writeCalled task fresh calls posted same => exact unchanged same.1 same.2.1 same.2.2.2.1
  | readCalled task fresh calls posted same => exact unchanged same.1 same.2.1 same.2.2.2.1
  | wrote task stored result idle head agrees buffer logged same =>
      intro waits
      rw [same.1] at waits
      have empty : s.buffer = [] := by simpa [idle] using awake waits
      rw [buffer, same.2.2.1, empty]
      cases stored <;> simp
  | handed waiting message busy promises buffer logged same =>
      intro _
      have single : s.buffer.length ≤ 1 := by
        simpa [busy] using awake (by simp [promises])
      rw [buffer, List.length_cons] at single
      omega
  | resolvedNothing busy none same =>
      intro waits
      rcases none with promises | buffer
      · rw [same.2.1] at waits
        exact absurd promises waits
      · simp [same.1, buffer]
  | served task message head buffer logged same =>
      intro waits
      rw [same.1] at waits
      have bound := awake waits
      rw [buffer, List.length_cons] at bound
      rw [same.2.2.1]
      omega
  | queued task waiting head answers empty promises same =>
      intro _
      simp [same.1, empty]
  | timedOut waiting member promises logged same =>
      intro _
      rw [same.1, same.2.2.2.1]
      exact awake (List.ne_nil_of_mem member)
  | silent timers same => exact unchanged same.1 same.2.1 same.2.2.2.2.1

/-- A move logs nothing or one completion, and a completed read carries a message exactly when it
    succeeded. -/
theorem Move.logs {s t : MemBuffer} {e : Event} (moved : Move s t e) :
    t.completions = s.completions ∨
      ∃ done, t.completions = s.completions ++ [done] ∧
        ∀ id result message, done = .read id result message →
          (result = .success ↔ message.isSome = true) := by
  cases moved with
  | writeCalled task fresh calls posted same => exact .inl same.2.2.2.2.2
  | readCalled task fresh calls posted same => exact .inl same.2.2.2.2.2
  | wrote task stored result idle head agrees buffer logged same =>
      exact .inr ⟨_, logged, by simp⟩
  | handed waiting message busy promises buffer logged same =>
      refine .inr ⟨_, logged, ?_⟩
      rintro id result carried ⟨⟩
      simp
  | resolvedNothing busy none same => exact .inl same.2.2.2.2.2.2.2
  | served task message head buffer logged same =>
      refine .inr ⟨_, logged, ?_⟩
      rintro id result carried ⟨⟩
      simp
  | queued task waiting head answers empty promises same => exact .inl same.2.2.2.2.2
  | timedOut waiting member promises logged same =>
      refine .inr ⟨_, logged, ?_⟩
      rintro id result carried ⟨⟩
      simp
  | silent timers same => exact .inl same.2.2.2.2.2.2.2

theorem Move.carried {s t : MemBuffer} {e : Event} (moved : Move s t e)
    (before : ∀ id result message, .read id result message ∈ s.completions →
      (result = .success ↔ message.isSome = true)) :
    ∀ id result message, .read id result message ∈ t.completions →
      (result = .success ↔ message.isSome = true) := by
  intro id result message member
  rcases moved.logs with log | ⟨done, log, carries⟩
  · exact before id result message (log ▸ member)
  · rw [log] at member
    rcases List.mem_append.mp member with old | new
    · exact before id result message old
    · exact carries id result message (List.mem_singleton.mp new).symm

/-- Every move keeps the invariant. -/
theorem Move.consistent {s t : MemBuffer} {e : Event} (moved : Move s t e) (ids : PromiseIds t)
    (before : Consistent s) : Consistent t := by
  have writes := moved.writes before.writeOrder before.writesCalled
  exact
    { conserved := moved.conserved before.conserved
      writeOrder := writes.1
      writesCalled := writes.2
      promiseIds := ids
      reads := moved.reads before.promiseIds before.reads
      carried := moved.carried before.carried
      awake := moved.awake before.awake }

/-- Every state reached by a buffer that is still valid is consistent. -/
theorem run_consistent {s : MemBuffer} {es : List Event} (ran : machine.run {} es = some s)
    (valid : s.isValid = true) : Consistent s := by
  refine Machine.run_invariant (P := fun u => u.isValid = true → Consistent u) ?_
    (fun _ => consistent_init) ran valid
  intro before e after consistent stepped validAfter
  have consistentBefore := consistent (isValid_of_step stepped validAfter)
  exact (step_move validAfter stepped).consistent (step_promiseIds consistentBefore.promiseIds stepped)
    consistentBefore

/-- In every run of a buffer that stays valid: the messages whose write reported success are, in the
    order of the `write_async` calls, first those handed to successful reads and then those still stored,
    so each is in exactly one place, and each holds what its call was given; every read has completed once, or
    waits, or its task has still to run, and exactly the successful ones take a message; and outside the two
    steps of a write no message is stored beside a waiting read. -/
theorem valid_run_delivers {s : MemBuffer} {es : List Event} (ran : machine.run {} es = some s)
    (valid : s.isValid = true) :
    s.accepted = s.delivered.map Prod.snd ++ s.buffer ∧
      s.accepted.Pairwise (·.writeId < ·.writeId) ∧
      (∀ message ∈ s.accepted, s.writeCalls[message.writeId]? = some message.data) ∧
      (s.completedReads ++ (s.readPromises.map ReadPromiseData.promise ++ s.readStrand.map ReadTask.id)).Perm
        (List.range s.readCalls) ∧
      (∀ id result message, .read id result message ∈ s.completions →
        (result = .success ↔ message.isSome = true)) ∧
      (s.resolving = false → s.buffer = [] ∨ s.readPromises = []) := by
  have consistent := run_consistent ran valid
  refine ⟨consistent.conserved, (List.pairwise_append.mp consistent.writeOrder).1, ?_, consistent.reads,
    consistent.carried, ?_⟩
  · intro message member
    exact consistent.writesCalled message (List.mem_append_left _ member)
  · intro idle
    by_cases waits : s.readPromises = []
    · exact .inr waits
    · have empty : s.buffer = [] := by simpa [idle] using consistent.awake waits
      exact .inl empty

/-- A read that times out, one that a write serves, and one whose task has still to run; of the three writes one
    runs out of time, and one is stored. -/
theorem valid_run_delivers_example :
    ∃ s, machine.run {}
        [.readAsync (some 5), .readImpl, .readAsync none, .readImpl, .timerExpires 0, .timerHandler 0,
          .writeAsync (some [1]) none 0, .writeImpl 0 false, .resolveReadPromise,
          .writeAsync (some [2]) (some 1) 0, .writeImpl 2000000 false, .resolveReadPromise,
          .writeAsync (some [3]) none 0, .writeImpl 0 false, .readAsync none] = some s ∧
      (s.isValid = true ∧ s.delivered = [(1, ⟨0, some [1]⟩)] ∧ s.buffer = [⟨2, some [3]⟩] ∧
        s.completions = [.read 0 .timeout none, .write ⟨0, some [1]⟩ .success,
          .read 1 .success (some ⟨0, some [1]⟩), .write ⟨1, some [2]⟩ .timeout,
          .write ⟨2, some [3]⟩ .success]) ∧
      s.accepted = s.delivered.map Prod.snd ++ s.buffer := by
  refine Machine.exists_run ⟨_, rfl, rfl, rfl, rfl, rfl⟩ fun ran ⟨valid, _⟩ => ?_
  exact (valid_run_delivers ran valid).1

/-! ### The order in which waiting reads are served -/

/-- Of two successful reads, the one issued first got the message written first. -/
def ServedInOrder (s : MemBuffer) : Prop :=
  ∀ first firstMessage second secondMessage, (first, firstMessage) ∈ s.delivered →
    (second, secondMessage) ∈ s.delivered → first < second →
      firstMessage.writeId < secondMessage.writeId

/-- `read_impl` does not run while a message is stored beside a waiting read, that is, in the middle of
    a write that has a waiting read to serve. -/
def servesInTurn (s : MemBuffer) : Event → Bool
  | .readImpl => s.buffer.isEmpty || s.readPromises.isEmpty
  | _ => true

/-- A read that runs between the two steps of a write overtakes the read that waits for it. -/
theorem waiting_read_overtaken :
    ¬ ∀ (es : List Event) (s : MemBuffer), machine.run {} es = some s → s.isValid = true →
      ServedInOrder s := by
  intro claimed
  have overtaken := claimed
    [.readAsync none, .readImpl, .writeAsync (some [1]) none 0, .readAsync none, .writeImpl 0 false,
      .readImpl, .resolveReadPromise, .writeAsync (some [2]) none 0, .writeImpl 0 false,
      .resolveReadPromise] _ rfl rfl 0 ⟨1, some [2]⟩ 1 ⟨0, some [1]⟩
  exact absurd (overtaken (by decide) (by decide) (by decide)) (by decide)

/-- Successful reads, then open ones, in the order they were issued. -/
def readTurns (s : MemBuffer) : List Nat := s.delivered.map Prod.fst ++ s.openReads

/-- A move in turn completes the next read, or drops one, or adds a new one at the end. -/
theorem Move.readTurns_cases {s t : MemBuffer} {e : Event} (moved : Move s t e)
    (inTurn : servesInTurn s e = true) :
    (t.readTurns = s.readTurns ++ [s.readCalls] ∧ t.readCalls = s.readCalls + 1) ∨
      (t.readTurns.Sublist s.readTurns ∧ t.readCalls = s.readCalls) := by
  have unchanged : t.completions = s.completions → t.openReads = s.openReads →
      t.readTurns.Sublist s.readTurns := by
    intro log opened
    simp only [readTurns, delivered, log, opened]
    exact List.Sublist.refl _
  have same_opened : t.readPromises = s.readPromises → t.readStrand = s.readStrand →
      t.openReads = s.openReads := by
    intro promises strand
    simp only [openReads, promises, strand]
  cases moved with
  | writeCalled task fresh calls posted same =>
      exact .inr ⟨unchanged same.2.2.2.2.2 (same_opened same.2.1 same.2.2.1), same.2.2.2.2.1⟩
  | readCalled task fresh calls posted same =>
      refine .inl ⟨?_, calls⟩
      simp [readTurns, delivered, same.2.2.2.2.2, openReads, same.2.1, posted, fresh]
  | wrote task stored result idle head agrees buffer logged same =>
      refine .inr ⟨?_, same.2.2.2.2⟩
      rw [readTurns, readTurns, delivered_logged logged, same_opened same.1 same.2.1]
      simp [MemCompletion.delivered]
  | handed waiting message busy promises buffer logged same =>
      refine .inr ⟨?_, same.2.2.2.2⟩
      rw [readTurns, readTurns, delivered_logged logged]
      simp [MemCompletion.delivered, openReads, promises, same.1]
  | resolvedNothing busy none same =>
      exact .inr ⟨unchanged same.2.2.2.2.2.2.2 (same_opened same.2.1 same.2.2.1),
        same.2.2.2.2.2.2.1⟩
  | served task message head buffer logged same =>
      -- a message is stored, so serving in turn means that no read waits
      have noneWaits : s.readPromises = [] := by
        simpa [servesInTurn, buffer] using inTurn
      refine .inr ⟨?_, same.2.2.2.2⟩
      rw [readTurns, readTurns, delivered_logged logged]
      simp [MemCompletion.delivered, openReads, noneWaits, same.1, head]
  | queued task waiting head answers empty promises same =>
      refine .inr ⟨unchanged same.2.2.2.2.2 ?_, same.2.2.2.2.1⟩
      simp [openReads, promises, head, answers]
  | timedOut waiting member promises logged same =>
      have sub : t.readPromises.Sublist s.readPromises := promises ▸ List.filter_sublist
      refine .inr ⟨?_, same.2.2.2.2.2⟩
      rw [readTurns, readTurns, delivered_logged logged, openReads, openReads, same.2.1]
      simpa [MemCompletion.delivered] using sub.map ReadPromiseData.promise
  | silent timers same =>
      exact .inr ⟨unchanged same.2.2.2.2.2.2.2 (same_opened same.2.1 same.2.2.1),
        same.2.2.2.2.2.2.1⟩

/-- Reads keep their turns as long as every step serves in turn. -/
theorem Move.turns {s t : MemBuffer} {e : Event} (moved : Move s t e)
    (inTurn : servesInTurn s e = true)
    (sorted : s.readTurns.Pairwise (· < ·)) (called : ∀ id ∈ s.readTurns, id < s.readCalls) :
    t.readTurns.Pairwise (· < ·) ∧ ∀ id ∈ t.readTurns, id < t.readCalls := by
  rcases moved.readTurns_cases inTurn with ⟨turns, calls⟩ | ⟨sub, calls⟩
  · rw [turns, calls]
    constructor
    · apply List.pairwise_append.mpr
      refine ⟨sorted, List.pairwise_singleton _ _, ?_⟩
      intro id member new newMember
      rw [List.mem_singleton.mp newMember]
      exact called id member
    · intro id member
      rcases List.mem_append.mp member with old | new
      · exact Nat.lt_succ_of_lt (called id old)
      · rw [List.mem_singleton.mp new]
        exact Nat.lt_succ_self _
  · rw [calls]
    exact ⟨sorted.sublist sub, fun id member => called id (sub.subset member)⟩

/-- If the reads and the messages of the deliveries both come in order, reads are served in order. -/
theorem servedInOrder_of_sorted {s : MemBuffer} (reads : (s.delivered.map Prod.fst).Pairwise (· < ·))
    (messages : (s.delivered.map Prod.snd).Pairwise (·.writeId < ·.writeId)) : ServedInOrder s := by
  intro first firstMessage second secondMessage firstMember secondMember earlier
  rcases List.mem_iff_getElem.mp firstMember with ⟨i, hi, firstAt⟩
  rcases List.mem_iff_getElem.mp secondMember with ⟨j, hj, secondAt⟩
  have readsAt := List.pairwise_iff_getElem.mp reads
  have messagesAt := List.pairwise_iff_getElem.mp messages
  simp only [List.length_map, List.getElem_map] at readsAt messagesAt
  have before : i < j := by
    rcases Nat.lt_trichotomy i j with before | same | after
    · exact before
    · subst same
      rw [firstAt] at secondAt
      cases secondAt
      exact absurd earlier (Nat.lt_irrefl _)
    · have later := readsAt j i hj hi after
      rw [firstAt, secondAt] at later
      exact absurd earlier (Nat.lt_asymm later)
  have written := messagesAt i j hi hj before
  rwa [firstAt, secondAt] at written

/-- In every run of a valid buffer none of whose steps lets a read take a message while an older read
    waits, reads are served first come, first served. -/
theorem served_in_turn {s : MemBuffer} {es : List Event}
    (ran : (machine.restrict servesInTurn).run {} es = some s) (valid : s.isValid = true) :
    ServedInOrder s := by
  have consistent := run_consistent (Machine.run_restrict ran) valid
  have turns : s.isValid = true → Consistent s ∧ s.readTurns.Pairwise (· < ·) ∧
      ∀ id ∈ s.readTurns, id < s.readCalls := by
    refine Machine.run_invariant (P := fun u => u.isValid = true → Consistent u ∧
      u.readTurns.Pairwise (· < ·) ∧ ∀ id ∈ u.readTurns, id < u.readCalls) ?_ ?_ ran
    · intro before e after inv stepped validAfter
      rcases Machine.restrict_step.mp stepped with ⟨inTurn, plain⟩
      rcases inv (isValid_of_step plain validAfter) with ⟨consistentBefore, sorted, called⟩
      have moved := step_move validAfter plain
      exact ⟨moved.consistent (step_promiseIds consistentBefore.promiseIds plain) consistentBefore,
        moved.turns inTurn sorted called⟩
    · intro _
      exact ⟨consistent_init, by simp [readTurns, delivered, openReads]⟩
  apply servedInOrder_of_sorted
  · exact (List.pairwise_append.mp (turns valid).2.1).1
  · have accepted := (List.pairwise_append.mp consistent.writeOrder).1
    rw [consistent.conserved] at accepted
    exact (List.pairwise_append.mp accepted).1

/-- Two reads wait, two writes serve them one after the other. -/
theorem served_in_turn_two_reads :
    ∃ s, (machine.restrict servesInTurn).run {}
        [.readAsync none, .readImpl, .readAsync none, .readImpl, .writeAsync (some [1]) none 0,
          .writeImpl 0 false, .resolveReadPromise, .writeAsync (some [2]) none 0, .writeImpl 0 false,
          .resolveReadPromise] = some s ∧
      s.delivered = [(0, ⟨0, some [1]⟩), (1, ⟨1, some [2]⟩)] ∧ ServedInOrder s := by
  refine Machine.exists_run ⟨_, rfl, rfl⟩ fun {s} ran _ => served_in_turn ran ?_
  obtain rfl := Option.some.inj ran
  rfl

end MemBuffer

end CommonRpc
