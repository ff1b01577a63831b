/-
Module: CommonRpc.Proofs.MemBuffers
Purpose: Invalidation of the connected in-memory pipe. A run of the pipe is a run of each of its buffers
  (`run_buffer`), and what is open in a buffer at its invalidation settles as
  CommonRpc.Proofs.MemBufferInvalidation says. Two things then go wrong. A write posted by the endpoint
  that did not invalidate completes with `canceled` instead of `failed`, because `write_impl` does not know
  who invalidated. And two concurrent calls may each win one buffer, because a call takes the two buffers
  in two critical sections; no sequential order of the calls explains the outcome then.
Trusted boundary: none
-/
import CommonRpc.Core.MemBuffers
import CommonRpc.Proofs.MemBufferInvalidation

namespace CommonRpc

namespace InvalidateCall

/-- The buffer that the next critical section of the call invalidates. -/
def reaches (call : InvalidateCall) : Option Bool :=
  match call.stage with
  | .clientToServer => some true
  | .serverToClient => some false
  | .callbacks | .returned => none

/-- The call cancels the reads of this side. -/
def cancels (call : InvalidateCall) (isServer : Bool) : Bool :=
  if isServer then call.cancelServerSide else call.cancelClientSide

theorem reaches_first {call : InvalidateCall} (first : call.stage = .clientToServer) :
    call.reaches = some true := by
  simp [reaches, first]

end InvalidateCall

namespace MemBuffers

open Lib

/-- The buffer that the endpoint reads from and its peer writes to. -/
def buffer (s : MemBuffers) (isServer : Bool) : MemBuffer :=
  if isServer then s.clientToServer else s.serverToClient

/-- What the operations of an endpoint complete with when the endpoint `byServer` invalidates the pipe. -/
def invalidationResult (byServer isServer : Bool) : PipeOpRes :=
  if byServer = isServer then .canceled else .failed

/-! ### A run of the pipe is a run of its buffers -/

/-- What a step of the pipe does to one of the buffers. -/
inductive Touches (s t : MemBuffers) (isServer : Bool) : Event → Prop where
  | untouched {e : Event} (same : t.buffer isServer = s.buffer isServer) : Touches s t isServer e
  | operated {e : Event} (event : MemBuffer.Event)
      (stepped : (s.buffer isServer).step event = some (t.buffer isServer))
      (kept : (t.buffer isServer).isValid = (s.buffer isServer).isValid ∧
        (t.buffer isServer).readInvalidationResult = (s.buffer isServer).readInvalidationResult) :
      Touches s t isServer e
  | invalidated {index : Nat} (call : InvalidateCall) (running : s.calls[index]? = some call)
      (reaches : call.reaches = some isServer)
      (closed : t.buffer isServer = (s.buffer isServer).invalidate (call.cancels isServer)) :
      Touches s t isServer (.invalidateImpl index)

/-- Only `invalidate` changes whether a buffer is valid and what its reads complete with then. -/
theorem verdict_step {s t : MemBuffer} {e : MemBuffer.Event} (stepped : s.step e = some t)
    (notInvalidate : ∀ cancelRead, e ≠ .invalidate cancelRead) :
    t.isValid = s.isValid ∧ t.readInvalidationResult = s.readInvalidationResult := by
  cases e with
  | writeAsync data timeout now =>
      cases stepped
      simp only [MemBuffer.writeAsync]
      split <;> exact ⟨rfl, rfl⟩
  | readAsync timeout =>
      cases stepped
      exact ⟨rfl, rfl⟩
  | writeImpl now pushThrows =>
      simp only [MemBuffer.step] at stepped
      split at stepped
      · cases stepped
        simp only [MemBuffer.writeImpl]
        repeat' split
        all_goals exact ⟨rfl, rfl⟩
      · cases stepped
  | resolveReadPromise =>
      simp only [MemBuffer.step] at stepped
      split at stepped
      · cases stepped
        simp only [MemBuffer.resolveReadPromise]
        split <;> exact ⟨rfl, rfl⟩
      · cases stepped
  | readImpl =>
      simp only [MemBuffer.step] at stepped
      split at stepped
      · cases stepped
        simp only [MemBuffer.readImpl]
        repeat' split
        all_goals exact ⟨rfl, rfl⟩
      · cases stepped
  | timerExpires id =>
      rcases Option.map_eq_some_iff.mp stepped with ⟨timer, _, rfl⟩
      exact ⟨rfl, rfl⟩
  | timerHandler id =>
      rcases Option.map_eq_some_iff.mp stepped with ⟨⟨timer, callback⟩, _, rfl⟩
      cases callback with
      | none => exact ⟨rfl, rfl⟩
      | some promiseId =>
          simp only [MemBuffer.timeoutCallback]
          split <;> exact ⟨rfl, rfl⟩
  | invalidate cancelRead => exact absurd rfl (notInvalidate cancelRead)

theorem step_touches {s t : MemBuffers} {e : Event} (isServer : Bool) (stepped : s.step e = some t) :
    Touches s t isServer e := by
  have operated {u : MemBuffers} {e : Event} (event : MemBuffer.Event)
      (notInvalidate : ∀ cancelRead, event ≠ .invalidate cancelRead)
      (plain : (s.buffer isServer).step event = some (u.buffer isServer)) :
      Touches s u isServer e :=
    .operated event plain (verdict_step plain notInvalidate)
  cases e with
  | writeAsync side data timeout now =>
      cases stepped
      cases isServer <;> cases side
      · exact .untouched rfl
      · exact operated (.writeAsync data timeout now) (by simp) rfl
      · exact operated (.writeAsync data timeout now) (by simp) rfl
      · exact .untouched rfl
  | readAsync side timeout =>
      cases stepped
      cases isServer <;> cases side
      · exact operated (.readAsync timeout) (by simp) rfl
      · exact .untouched rfl
      · exact .untouched rfl
      · exact operated (.readAsync timeout) (by simp) rfl
  | setDisconnectCallback callback =>
      cases stepped
      apply Touches.untouched
      simp only [setInvalidateCallback]
      split <;> rfl
  | invalidate side =>
      cases stepped
      exact .untouched rfl
  | invalidateImpl index =>
      simp only [step] at stepped
      split at stepped
      · cases stepped
      · rename_i call running
        obtain ⟨after, ran, rfl⟩ := Option.map_eq_some_iff.mp stepped
        simp only [invalidateImpl] at ran
        cases stage : call.stage with
        | clientToServer =>
            rw [stage] at ran
            cases ran
            cases isServer with
            | false => exact .untouched rfl
            | true => exact .invalidated call running (by simp [InvalidateCall.reaches, stage]) rfl
        | serverToClient =>
            rw [stage] at ran
            cases ran
            cases isServer with
            | false => exact .invalidated call running (by simp [InvalidateCall.reaches, stage]) rfl
            | true => exact .untouched rfl
        | callbacks =>
            rw [stage] at ran
            cases ran
            exact .untouched rfl
        | returned =>
            rw [stage] at ran
            cases ran
  | task toServer event =>
      simp only [step] at stepped
      split at stepped
      · cases stepped
      · rename_i isTask
        have notInvalidate : ∀ cancelRead, event ≠ .invalidate cancelRead := by
          rintro cancelRead rfl
          simp [MemBuffer.Event.isTask] at isTask
        split at stepped
        · rename_i toServer
          obtain ⟨after, ran, rfl⟩ := Option.map_eq_some_iff.mp stepped
          cases isServer with
          | false => exact .untouched rfl
          | true => exact operated event notInvalidate ran
        · obtain ⟨after, ran, rfl⟩ := Option.map_eq_some_iff.mp stepped
          cases isServer with
          | false => exact operated event notInvalidate ran
          | true => exact .untouched rfl

/-- A step of the pipe leaves a buffer alone or is a step of it. -/
theorem Touches.step {s t : MemBuffers} {isServer : Bool} {e : Event}
    (touches : Touches s t isServer e) :
    t.buffer isServer = s.buffer isServer ∨
      ∃ event, MemBuffer.machine.step (s.buffer isServer) event = some (t.buffer isServer) := by
  cases touches with
  | untouched same => exact .inl same
  | operated event stepped kept => exact .inr ⟨event, stepped⟩
  | invalidated call running reaches closed =>
      exact .inr ⟨.invalidate (call.cancels isServer), by simp [MemBuffer.machine, MemBuffer.step, closed]⟩

/-- In every run of the pipe each buffer makes a run of its own. -/
theorem run_buffer {s : MemBuffers} {es : List Event} (isServer : Bool)
    (ran : machine.run {} es = some s) :
    ∃ events, MemBuffer.machine.run {} events = some (s.buffer isServer) := by
  apply Machine.run_invariant
    (P := fun u : MemBuffers => ∃ events, MemBuffer.machine.run {} events = some (u.buffer isServer))
    ?_ ⟨[], by cases isServer <;> rfl⟩ ran
  rintro u e t ⟨events, reached⟩ stepped
  rcases (step_touches isServer stepped).step with same | ⟨event, plain⟩
  · exact ⟨events, same ▸ reached⟩
  · refine ⟨events ++ [event], Machine.run_append_eq_some.mpr ⟨_, reached, ?_⟩⟩
    exact Machine.run_cons_eq_some.mpr ⟨_, plain, rfl⟩

/-! ### What is open at the invalidation -/

/-- In the run `es` the buffer that this endpoint reads from is invalidated, and `before` is its state just
    before that. -/
def LastValid (es : List Event) (isServer : Bool) (before : MemBuffer) : Prop :=
  ∃ es₁ e es₂ s t, es = es₁ ++ e :: es₂ ∧ machine.run {} es₁ = some s ∧ s.step e = some t ∧
    s.buffer isServer = before ∧ before.isValid = true ∧ (t.buffer isServer).isValid = false

/-- Once invalid, the operations open at the invalidation settle with what that invalidation chose. -/
theorem settled_of_lastValid {es : List Event} {s : MemBuffers} {isServer : Bool} {before : MemBuffer}
    (ran : machine.run {} es = some s) (last : LastValid es isServer before) :
    MemBuffer.Settled before (s.buffer isServer).readInvalidationResult (s.buffer isServer) := by
  obtain ⟨es₁, e, es₂, u, t, rfl, first, stepped, rfl, valid, invalid⟩ := last
  obtain ⟨u', first', rest⟩ := Machine.run_append_eq_some.mp ran
  obtain rfl : u = u' := Option.some.inj (first.symm.trans first')
  obtain ⟨t', stepped', later⟩ := Machine.run_cons_eq_some.mp rest
  obtain rfl : t = t' := Option.some.inj (stepped.symm.trans stepped')
  obtain ⟨events, reached⟩ := run_buffer isServer first
  have consistent := MemBuffer.run_consistent reached valid
  have posted := MemBuffer.run_posted reached valid
  have settled : ∃ result, MemBuffer.Settled (u.buffer isServer) result (t.buffer isServer) := by
    cases step_touches isServer stepped with
    | untouched same =>
        rw [same, valid] at invalid
        cases invalid
    | operated event plain kept =>
        rw [kept.1, valid] at invalid
        cases invalid
    | invalidated call running reaches closed =>
        exact ⟨_, closed ▸ MemBuffer.settled_invalidate valid consistent posted⟩
  obtain ⟨result, settled⟩ := settled
  have kept : MemBuffer.Settled (u.buffer isServer) result (s.buffer isServer) := by
    apply Machine.run_invariant
      (P := fun v : MemBuffers => MemBuffer.Settled (u.buffer isServer) result (v.buffer isServer))
      ?_ settled later
    intro v e w inv across
    rcases (step_touches isServer across).step with same | ⟨event, plain⟩
    · exact same ▸ inv
    · exact MemBuffer.settled_step inv plain
  rw [kept.readResult]
  exact kept

/-! ### One endpoint invalidates -/

/-- The calls of the run are made by one endpoint, and the reads of each invalid buffer complete as that
    endpoint's `invalidate` has it. -/
structure Alone (byServer : Bool) (s : MemBuffers) : Prop where
  calls : ∀ call ∈ s.calls, call.cancelServerSide = byServer ∧ call.cancelClientSide = !byServer
  results : ∀ isServer, (s.buffer isServer).isValid = false →
    (s.buffer isServer).readInvalidationResult = invalidationResult byServer isServer

/-- A step changes the calls only by adding one or by moving one on. -/
theorem calls_step {s t : MemBuffers} {e : Event} (stepped : s.step e = some t) :
    (∃ side, e = .invalidate side ∧
        t.calls = s.calls ++ [{ cancelServerSide := side, cancelClientSide := !side }]) ∨
      (∃ index call stage, e = .invalidateImpl index ∧ s.calls[index]? = some call ∧
        t.calls = s.calls.set index { call with stage := stage }) ∨
      t.calls = s.calls := by
  cases e with
  | invalidate side =>
      cases stepped
      exact .inl ⟨side, rfl, rfl⟩
  | invalidateImpl index =>
      simp only [step] at stepped
      split at stepped
      · cases stepped
      · rename_i call running
        obtain ⟨after, ran, rfl⟩ := Option.map_eq_some_iff.mp stepped
        refine .inr (.inl ⟨index, call, after.2.stage, rfl, running, ?_⟩)
        simp only [invalidateImpl] at ran
        split at ran <;> cases ran <;> rfl
  | writeAsync side data timeout now =>
      cases stepped
      cases side <;> exact .inr (.inr rfl)
  | readAsync side timeout =>
      cases stepped
      cases side <;> exact .inr (.inr rfl)
  | setDisconnectCallback callback =>
      cases stepped
      right
      right
      simp only [setInvalidateCallback]
      split <;> rfl
  | task toServer event =>
      simp only [step] at stepped
      split at stepped
      · cases stepped
      · split at stepped <;>
          obtain ⟨after, _, rfl⟩ := Option.map_eq_some_iff.mp stepped <;> exact .inr (.inr rfl)

/-- A property of the arguments of every call is kept when a call is added that has it. -/
theorem calls_all {P : Bool → Bool → Prop} {s t : MemBuffers} {e : Event} (stepped : s.step e = some t)
    (before : ∀ call ∈ s.calls, P call.cancelServerSide call.cancelClientSide)
    (added : ∀ side, e = .invalidate side → P side (!side)) :
    ∀ call ∈ t.calls, P call.cancelServerSide call.cancelClientSide := by
  rcases calls_step stepped with ⟨side, called, calls⟩ | ⟨index, call, stage, _, running, calls⟩ | calls
  · rw [calls]
    intro call member
    rcases List.mem_append.mp member with old | new
    · exact before call old
    · rw [List.mem_singleton.mp new]
      exact added side called
  · rw [calls]
    intro other member
    rcases List.mem_or_eq_of_mem_set member with old | new
    · exact before other old
    · rw [new]
      exact before call (List.mem_of_getElem? running)
  · rw [calls]
    exact before

/-- A buffer that is invalid after a step was so before with the same result for its reads, or the step is
    the critical section of a call that invalidates it. -/
theorem invalid_step {s t : MemBuffers} {e : Event} (isServer : Bool) (stepped : s.step e = some t)
    (invalid : (t.buffer isServer).isValid = false) :
    ((s.buffer isServer).isValid = false ∧
        (t.buffer isServer).readInvalidationResult = (s.buffer isServer).readInvalidationResult) ∨
      ∃ index call, e = .invalidateImpl index ∧ s.calls[index]? = some call ∧
        call.reaches = some isServer ∧ (s.buffer isServer).isValid = true ∧
        (t.buffer isServer).readInvalidationResult =
          if call.cancels isServer then .canceled else .failed := by
  cases step_touches isServer stepped with
  | untouched same => exact .inl ⟨same ▸ invalid, same ▸ rfl⟩
  | operated event plain kept => exact .inl ⟨kept.1 ▸ invalid, kept.2⟩
  | invalidated call running reaches closed =>
      cases valid : (s.buffer isServer).isValid with
      | false =>
          left
          rw [closed]
          simp [MemBuffer.invalidate, valid]
      | true =>
          right
          refine ⟨_, call, rfl, running, reaches, rfl, ?_⟩
          rw [closed]
          simp [MemBuffer.invalidate, valid]

theorem alone_step {byServer : Bool} {s t : MemBuffers} {e : Event} (alone : Alone byServer s)
    (only : e ≠ .invalidate (!byServer)) (stepped : s.step e = some t) : Alone byServer t := by
  constructor
  · apply calls_all (P := fun server client => server = byServer ∧ client = !byServer) stepped
      alone.calls
    rintro side rfl
    have same : side = byServer := by simpa using only
    exact ⟨same, congrArg _ same⟩
  · intro isServer invalid
    rcases invalid_step isServer stepped invalid with ⟨before, same⟩ | ⟨index, call, _, running, _, _, result⟩
    · rw [same]
      exact alone.results isServer before
    · rw [result]
      have args := alone.calls call (List.mem_of_getElem? running)
      cases isServer <;> cases byServer <;> simp_all [InvalidateCall.cancels, invalidationResult]

theorem run_alone {byServer : Bool} {s : MemBuffers} {es : List Event}
    (ran : machine.run {} es = some s) (only : ∀ e ∈ es, e ≠ .invalidate (!byServer)) :
    Alone byServer s := by
  apply Machine.run_induction
    (P := fun events u => (∀ e ∈ events, e ≠ .invalidate (!byServer)) → Alone byServer u) ?_ ?_ ran only
  · intro _
    constructor
    · simp
    · intro isServer invalid
      cases isServer <;> cases invalid
  · intro events u e t _ inv stepped only
    apply alone_step (inv fun e member => only e (List.mem_append_left _ member)) ?_ stepped
    exact only e (List.mem_append_right _ (List.mem_singleton_self _))

/-- Everything that is open when endpoint `byServer` invalidates the pipe completes with `canceled` at that
    endpoint and with `failed` at its peer. -/
def SettlesByOwner (byServer : Bool) (es : List Event) (s : MemBuffers) : Prop :=
  ∀ isServer before, LastValid es isServer before →
    (∀ id ∈ before.openReads,
      (s.buffer isServer).ReadSettles id (invalidationResult byServer isServer)) ∧
    ∀ write ∈ before.openWrites,
      (s.buffer isServer).WriteSettles write (invalidationResult byServer (!isServer))

/-- No write of the peer is posted and still to run when `invalidate` reaches the buffer the peer writes
    to, which is the one whose reads the call cancels. -/
def peerWritesRan (s : MemBuffers) : Event → Bool
  | .invalidateImpl index =>
      match s.calls[index]? with
      | none => true
      | some call => match call.reaches with
        | none => true
        | some isServer => !call.cancels isServer || (s.buffer isServer).writeStrand.isEmpty
  | _ => true

/-- The client's write is posted when the server invalidates, and completes with `canceled`. -/
theorem peer_write_canceled :
    ¬ ∀ (byServer : Bool) (es : List Event) (s : MemBuffers), machine.run {} es = some s →
      (∀ e ∈ es, e ≠ .invalidate (!byServer)) → SettlesByOwner byServer es s := by
  intro claimed
  have settles := claimed true
    [.writeAsync false (some [1]) none 0, .invalidate true, .invalidateImpl 0, .invalidateImpl 0,
      .invalidateImpl 0, .task true (.writeImpl 0 false)] _ rfl (by decide) true _
    ⟨[.writeAsync false (some [1]) none 0, .invalidate true], .invalidateImpl 0, _, _, _, rfl, rfl, rfl,
      rfl, rfl, rfl⟩
  have failed := (settles.2 ⟨0, some [1]⟩ (by decide)).only .canceled (by decide)
  exact absurd failed (by decide)

/-- In every run in which one endpoint invalidates the pipe, and every write its peer posted has run when
    the call reaches the buffer, the operations of that endpoint open then complete with `canceled`, and
    those of the peer with `failed`: each is completed so, or is posted and will be when its task runs. -/
theorem invalidation_settles {byServer : Bool} {s : MemBuffers} {es : List Event}
    (ran : (machine.restrict peerWritesRan).run {} es = some s)
    (only : ∀ e ∈ es, e ≠ .invalidate (!byServer)) : SettlesByOwner byServer es s := by
  intro isServer before last
  have plain := Machine.run_restrict ran
  have settled := settled_of_lastValid plain last
  rw [(run_alone plain only).results isServer settled.invalid] at settled
  refine ⟨settled.reads, ?_⟩
  intro write opened
  by_cases own : byServer = !isServer
  · rw [invalidationResult, if_pos own]
    exact settled.writes write opened
  · -- the call cancels the reads of this buffer, so no write was left in it
    obtain ⟨es₁, e, es₂, u, t, rfl, first, stepped, rfl, valid, invalid⟩ := last
    have guarded := Machine.guard_of_run_restrict ran first
    have alone := run_alone first fun e member => only e (List.mem_append_left _ member)
    rcases invalid_step isServer stepped invalid with ⟨before, _⟩ | ⟨index, call, rfl, running, reaches, _, _⟩
    · rw [valid] at before
      cases before
    · have args := alone.calls call (List.mem_of_getElem? running)
      have cancels : call.cancels isServer = true := by
        cases isServer <;> cases byServer <;> simp_all [InvalidateCall.cancels]
      have ranAll : (u.buffer isServer).writeStrand = [] := by
        simpa [peerWritesRan, running, reaches, cancels] using guarded
      rw [MemBuffer.openWrites, ranAll] at opened
      cases opened

/-- The client reads and writes, the server reads, and then the server invalidates. -/
def serverInvalidates : List Event :=
  [.readAsync false none, .task false .readImpl, .readAsync true none, .writeAsync true (some [7]) none 0,
    .invalidate true, .invalidateImpl 0, .invalidateImpl 0, .invalidateImpl 0, .task true .readImpl,
    .task false (.writeImpl 0 false)]

theorem invalidation_settles_example :
    ∃ s, (machine.restrict peerWritesRan).run {} serverInvalidates = some s ∧
      (s.clientToServer.completions = [.read 0 .canceled none] ∧
        s.serverToClient.completions = [.read 0 .failed none, .write ⟨0, some [7]⟩ .canceled]) ∧
      SettlesByOwner true serverInvalidates s :=
  Machine.exists_run ⟨_, rfl, rfl, rfl⟩ fun ran _ => invalidation_settles ran (by decide)

/-! ### Both endpoints invalidate -/

/-- The reads open at the invalidation complete as if one of the endpoints had invalidated first: with
    `canceled` at that endpoint and with `failed` at the other. -/
def SequentialOutcome (es : List Event) (s : MemBuffers) : Prop :=
  ∃ winner, ∀ isServer before, LastValid es isServer before → ∀ id ∈ before.openReads,
    (s.buffer isServer).ReadSettles id (invalidationResult winner isServer)

/-- Only the call that invalidated the buffer towards the server invalidates the one towards the client. -/
def sameCallWins (s : MemBuffers) : Event → Bool
  | .invalidateImpl index =>
      match s.calls[index]? with
      | none => true
      | some call => call.stage != .serverToClient || !s.serverToClient.isValid ||
          decide (s.clientToServer.readInvalidationResult =
            if call.cancelServerSide then .canceled else .failed)
  | _ => true

/-- The server takes the first buffer and the client the second: the reads of both are cancelled. -/
theorem both_endpoints_canceled :
    ¬ ∀ (es : List Event) (s : MemBuffers), machine.run {} es = some s → SequentialOutcome es s := by
  intro claimed
  obtain ⟨winner, outcome⟩ := claimed
    [.readAsync true none, .task true .readImpl, .readAsync false none, .task false .readImpl,
      .invalidate true, .invalidate false, .invalidateImpl 0, .invalidateImpl 1, .invalidateImpl 1,
      .invalidateImpl 0, .invalidateImpl 0, .invalidateImpl 1] _ rfl
  have server := (outcome true _
    ⟨[.readAsync true none, .task true .readImpl, .readAsync false none, .task false .readImpl,
      .invalidate true, .invalidate false], .invalidateImpl 0, _, _, _, rfl, rfl, rfl, rfl, rfl, rfl⟩ 0
    (by decide)).only .canceled none (by decide)
  have client := (outcome false _
    ⟨[.readAsync true none, .task true .readImpl, .readAsync false none, .task false .readImpl,
      .invalidate true, .invalidate false, .invalidateImpl 0, .invalidateImpl 1], .invalidateImpl 1, _, _, _,
      rfl, rfl, rfl, rfl, rfl, rfl⟩ 0 (by decide)).only .canceled none (by decide)
  cases winner with
  | false => exact absurd server (by decide)
  | true => exact absurd client (by decide)

/-- What holds between the steps when one call wins both buffers. -/
structure OneWinner (s : MemBuffers) : Prop where
  opposite : ∀ call ∈ s.calls, call.cancelClientSide = !call.cancelServerSide
  inOrder : ∀ call ∈ s.calls, call.stage ≠ .clientToServer → s.clientToServer.isValid = false
  firstToServer : s.serverToClient.isValid = false → s.clientToServer.isValid = false
  agreed : ∃ winner, ∀ isServer, (s.buffer isServer).isValid = false →
    (s.buffer isServer).readInvalidationResult = invalidationResult winner isServer

/-- No step makes an invalid buffer of the pipe valid again. -/
theorem invalid_kept {s t : MemBuffers} {e : Event} (isServer : Bool) (stepped : s.step e = some t)
    (invalid : (s.buffer isServer).isValid = false) : (t.buffer isServer).isValid = false := by
  rcases (step_touches isServer stepped).step with same | ⟨event, plain⟩
  · rw [same]
    exact invalid
  · by_contra valid
    rw [Bool.not_eq_false] at valid
    have before := MemBuffer.isValid_of_step plain valid
    rw [invalid] at before
    cases before

/-- A critical section of `invalidate_impl` leaves the buffer it was in front of invalid. -/
theorem invalid_reached {s t : MemBuffers} {index : Nat} {call : InvalidateCall} {isServer : Bool}
    (stepped : s.step (.invalidateImpl index) = some t) (running : s.calls[index]? = some call)
    (reaches : call.reaches = some isServer) : (t.buffer isServer).isValid = false := by
  have closed (b : MemBuffer) (cancelRead : Bool) : (b.invalidate cancelRead).isValid = false := by
    cases valid : b.isValid <;> simp [MemBuffer.invalidate, valid]
  simp only [step, running] at stepped
  obtain ⟨after, ran, rfl⟩ := Option.map_eq_some_iff.mp stepped
  cases stage : call.stage with
  | clientToServer =>
      simp only [InvalidateCall.reaches, invalidateImpl, stage] at reaches ran
      cases reaches
      cases ran
      exact closed _ _
  | serverToClient =>
      simp only [InvalidateCall.reaches, invalidateImpl, stage] at reaches ran
      cases reaches
      cases ran
      exact closed _ _
  | callbacks => simp [InvalidateCall.reaches, stage] at reaches
  | returned => simp [InvalidateCall.reaches, stage] at reaches

theorem inOrder_step {s t : MemBuffers} {e : Event}
    (inOrder : ∀ call ∈ s.calls, call.stage ≠ .clientToServer → s.clientToServer.isValid = false)
    (stepped : s.step e = some t) :
    ∀ call ∈ t.calls, call.stage ≠ .clientToServer → t.clientToServer.isValid = false := by
  have kept : s.clientToServer.isValid = false → t.clientToServer.isValid = false :=
    fun invalid => invalid_kept true stepped invalid
  rcases calls_step stepped with ⟨side, _, calls⟩ | ⟨index, call, stage, rfl, running, calls⟩ | calls
  · rw [calls]
    intro other member past
    rcases List.mem_append.mp member with old | new
    · exact kept (inOrder other old past)
    · rw [List.mem_singleton.mp new] at past
      exact absurd rfl past
  · rw [calls]
    intro other member past
    rcases List.mem_or_eq_of_mem_set member with old | new
    · exact kept (inOrder other old past)
    · by_cases first : call.stage = .clientToServer
      · exact invalid_reached stepped running (InvalidateCall.reaches_first first)
      · exact kept (inOrder call (List.mem_of_getElem? running) first)
  · rw [calls]
    intro other member past
    exact kept (inOrder other member past)

/-- A call gives the reads of both sides the results of its own endpoint's invalidation. -/
theorem result_of_call (call : InvalidateCall) (isServer : Bool)
    (opposite : call.cancelClientSide = !call.cancelServerSide) :
    (if call.cancels isServer then PipeOpRes.canceled else .failed) =
      invalidationResult call.cancelServerSide isServer := by
  cases isServer <;> cases server : call.cancelServerSide <;>
    simp_all [InvalidateCall.cancels, invalidationResult]

/-- If the guard lets only one call win, the two buffers agree on who invalidated. -/
theorem agreed_step {s t : MemBuffers} {e : Event} (inv : OneWinner s)
    (guarded : sameCallWins s e = true) (stepped : s.step e = some t) :
    ∃ winner, ∀ isServer, (t.buffer isServer).isValid = false →
      (t.buffer isServer).readInvalidationResult = invalidationResult winner isServer := by
  obtain ⟨winner, agreed⟩ := inv.agreed
  by_cases some : ∃ isServer, (s.buffer isServer).isValid = true ∧ (t.buffer isServer).isValid = false
  · -- a call invalidates one of the buffers: it is the winner
    obtain ⟨isServer, valid, invalid⟩ := some
    rcases invalid_step isServer stepped invalid with
      ⟨before, _⟩ | ⟨index, call, rfl, running, reaches, _, result⟩
    · rw [valid] at before
      cases before
    · have opposite := inv.opposite call (List.mem_of_getElem? running)
      refine ⟨call.cancelServerSide, ?_⟩
      intro side closed
      by_cases same : side = isServer
      · rw [same, result]
        exact result_of_call call isServer opposite
      · cases isServer with
        | true =>
            -- the buffer towards the client cannot be invalid yet
            obtain rfl : side = false := by simpa using same
            rcases invalid_step false stepped closed with ⟨before, _⟩ | ⟨_, other, again, running', reaches', _⟩
            · have earlier : (s.buffer true).isValid = false := inv.firstToServer before
              rw [valid] at earlier
              cases earlier
            · cases again
              rw [running] at running'
              cases running'
              rw [reaches] at reaches'
              cases reaches'
        | false =>
            obtain rfl : side = true := by simpa using same
            have second : call.stage = .serverToClient := by
              cases stage : call.stage <;> simp [InvalidateCall.reaches, stage] at reaches ⊢
            have earlier : (s.buffer true).isValid = false := by
              apply inv.inOrder call (List.mem_of_getElem? running)
              simp [second]
            have still : s.serverToClient.isValid = true := valid
            rcases invalid_step true stepped closed with ⟨_, kept⟩ | ⟨_, _, _, _, _, valid', _⟩
            · rw [kept, ← result_of_call call true opposite]
              simpa [sameCallWins, running, second, still, InvalidateCall.cancels, buffer] using guarded
            · rw [earlier] at valid'
              cases valid'
  · refine ⟨winner, ?_⟩
    intro isServer invalid
    rcases invalid_step isServer stepped invalid with ⟨before, same⟩ | ⟨_, _, _, _, _, valid, _⟩
    · rw [same]
      exact agreed isServer before
    · exact absurd ⟨isServer, valid, invalid⟩ some

theorem oneWinner_step {s t : MemBuffers} {e : Event} (inv : OneWinner s)
    (guarded : sameCallWins s e = true) (stepped : s.step e = some t) : OneWinner t := by
  have opposite := calls_all (P := fun server client => client = !server) stepped inv.opposite
    (fun _ _ => rfl)
  have inOrder := inOrder_step inv.inOrder stepped
  have keptToServer : s.clientToServer.isValid = false → t.clientToServer.isValid = false :=
    fun invalid => invalid_kept true stepped invalid
  have firstToServer : t.serverToClient.isValid = false → t.clientToServer.isValid = false := by
    intro invalid
    rcases invalid_step false stepped invalid with
      ⟨before, _⟩ | ⟨index, call, _, running, reaches, _, _⟩
    · exact keptToServer (inv.firstToServer before)
    · apply keptToServer (inv.inOrder call (List.mem_of_getElem? running) ?_)
      intro first
      rw [InvalidateCall.reaches_first first] at reaches
      cases reaches
  exact ⟨opposite, inOrder, firstToServer, agreed_step inv guarded stepped⟩

/-- In every run in which only the call that invalidated the buffer towards the server invalidates the one
    towards the client, concurrent calls of both endpoints have a sequential outcome: the open reads of
    exactly one endpoint complete with `canceled` and those of the other with `failed`. -/
theorem invalidations_sequential {s : MemBuffers} {es : List Event}
    (ran : (machine.restrict sameCallWins).run {} es = some s) : SequentialOutcome es s := by
  have inv : OneWinner s := by
    apply Machine.run_invariant (P := OneWinner) ?_ ?_ ran
    · intro u e t inv stepped
      obtain ⟨guarded, plain⟩ := Machine.restrict_step.mp stepped
      exact oneWinner_step inv guarded plain
    · refine ⟨by simp, by simp, by simp, true, ?_⟩
      intro isServer invalid
      cases isServer <;> cases invalid
  obtain ⟨winner, agreed⟩ := inv.agreed
  refine ⟨winner, ?_⟩
  intro isServer before last id opened
  have settled := settled_of_lastValid (Machine.run_restrict ran) last
  rw [agreed isServer settled.invalid] at settled
  exact settled.reads id opened

/-- Two calls that interleave while the server's stays ahead. -/
def bothInvalidate : List Event :=
  [.readAsync true none, .task true .readImpl, .readAsync false none, .invalidate true, .invalidate false,
    .invalidateImpl 0, .invalidateImpl 1, .invalidateImpl 0, .invalidateImpl 1, .task false .readImpl]

theorem invalidations_sequential_example :
    ∃ s, (machine.restrict sameCallWins).run {} bothInvalidate = some s ∧
      (s.clientToServer.completions = [.read 0 .canceled none] ∧
        s.serverToClient.completions = [.read 0 .failed none]) ∧
      SequentialOutcome bothInvalidate s :=
  Machine.exists_run ⟨_, rfl, rfl, rfl⟩ fun ran _ => invalidations_sequential ran

/-! ### Disconnect callbacks -/

/-- The callback a call gives to the pipe. -/
def Event.callback : Event → Option Nat
  | .setDisconnectCallback callback => some callback
  | _ => none

/-- The callbacks, first those handed to the thread pool, and nothing waits once the pipe is invalidated. -/
structure Called (callbacks : List Nat) (s : MemBuffers) : Prop where
  inOrder : s.executed ++ s.onInvalidate = callbacks
  noneWaits : s.invalidated = true → s.onInvalidate = []

/-- What a step does to the callbacks: nothing, or the last critical section of `invalidate_impl` hands all of
    them over, or one is given to the pipe. -/
inductive CallbackMove (s t : MemBuffers) : Event → Prop where
  | none {e : Event} (given : e.callback = .none) (invalidated : t.invalidated = s.invalidated)
      (executed : t.executed = s.executed) (onInvalidate : t.onInvalidate = s.onInvalidate) : CallbackMove s t e
  | handedOver {e : Event} (given : e.callback = .none) (invalidated : t.invalidated = true)
      (executed : t.executed = s.executed ++ s.onInvalidate) (onInvalidate : t.onInvalidate = []) :
      CallbackMove s t e
  | given (callback : Nat) (given : t = s.setInvalidateCallback callback) :
      CallbackMove s t (.setDisconnectCallback callback)

theorem step_callbackMove {s t : MemBuffers} {e : Event} (stepped : s.step e = some t) : CallbackMove s t e := by
  cases e with
  | setDisconnectCallback callback =>
      cases stepped
      exact .given callback rfl
  | invalidateImpl index =>
      simp only [step] at stepped
      split at stepped
      · cases stepped
      · obtain ⟨after, ran, rfl⟩ := Option.map_eq_some_iff.mp stepped
        simp only [invalidateImpl] at ran
        split at ran
        · cases ran
          exact .none rfl rfl rfl rfl
        · cases ran
          exact .none rfl rfl rfl rfl
        · cases ran
          exact .handedOver rfl rfl rfl rfl
        · cases ran
  | writeAsync side data timeout now =>
      cases stepped
      cases side <;> exact .none rfl rfl rfl rfl
  | readAsync side timeout =>
      cases stepped
      cases side <;> exact .none rfl rfl rfl rfl
  | invalidate side =>
      cases stepped
      exact .none rfl rfl rfl rfl
  | task toServer event =>
      simp only [step] at stepped
      split at stepped
      · cases stepped
      · split at stepped <;>
          obtain ⟨after, _, rfl⟩ := Option.map_eq_some_iff.mp stepped <;> exact .none rfl rfl rfl rfl

theorem called_step {s t : MemBuffers} {e : Event} {callbacks : List Nat} (called : Called callbacks s)
    (stepped : s.step e = some t) : Called (callbacks ++ e.callback.toList) t := by
  obtain ⟨inOrder, noneWaits⟩ := called
  cases step_callbackMove stepped with
  | none given invalidated executed onInvalidate =>
      rw [given, Option.toList_none, List.append_nil]
      constructor
      · rw [executed, onInvalidate]
        exact inOrder
      · rw [invalidated, onInvalidate]
        exact noneWaits
  | handedOver given invalidated executed onInvalidate =>
      rw [given, Option.toList_none, List.append_nil]
      exact ⟨by rw [executed, onInvalidate, List.append_nil]; exact inOrder, fun _ => onInvalidate⟩
  | given callback given =>
      subst given
      simp only [setInvalidateCallback, Event.callback, Option.toList_some]
      split
      · rename_i invalidated
        refine ⟨?_, noneWaits⟩
        rw [← inOrder, noneWaits invalidated, List.append_nil, List.append_nil]
      · rename_i valid
        refine ⟨?_, fun invalidated => absurd invalidated valid⟩
        rw [← inOrder, List.append_assoc]

/-- Every callback given to the pipe is handed to the thread pool once, in order, as soon as the pipe is
    invalidated, and at once if it is already. -/
theorem callbacks_accounted {s : MemBuffers} {es : List Event} (ran : machine.run {} es = some s) :
    Called (es.filterMap Event.callback) s := by
  apply Machine.run_induction (P := fun events u => Called (events.filterMap Event.callback) u) ?_ ?_ ran
  · exact ⟨rfl, fun _ => rfl⟩
  · intro events u e t _ called stepped
    have across := called_step called stepped
    rw [List.filterMap_append]
    cases given : e.callback <;> simpa [given] using across

end MemBuffers

end CommonRpc
