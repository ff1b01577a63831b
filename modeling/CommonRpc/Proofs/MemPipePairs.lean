/-
Module: CommonRpc.Proofs.MemPipePairs
Purpose: The successful calls of `mem_pipe_env` come in pairs. Only a call that finds somebody waiting decides
  successes, two at a time and on buffers of their own; a withdrawn call gets no endpoint. Since a pair takes the
  oldest waiting call of one side and finds nobody waiting on the other, no waiting call is passed over.
Trusted boundary: none
-/
import CommonRpc.Proofs.MemPipeEnv

namespace CommonRpc

namespace MemPipeEnv

open Lib

variable {s t : MemPipeEnv} {side : Bool}

/-- How the successful calls belong together. -/
structure Matched (s : MemPipeEnv) : Prop where
  outcomes : ∀ done ∈ s.results, done.result ≠ .failed
  successes : ∀ done ∈ s.results, done.result = .success ↔ done.endpoint.isSome = true
  /-- An endpoint has the role of its call, and the other end of its buffers belongs to another call. -/
  paired : ∀ done ∈ s.results, ∀ pipeEnd, done.endpoint = some pipeEnd →
    pipeEnd.buffers < s.nextBuffers ∧ (∃ clientId, s.calls[done.call]? = some ⟨pipeEnd.isServer, clientId⟩) ∧
      ∃ other ∈ s.results, other.endpoint = some ⟨!pipeEnd.isServer, pipeEnd.buffers⟩
  /-- An end of a pair of buffers belongs to one call. -/
  distinct : ∀ first ∈ s.results, ∀ second ∈ s.results, ∀ pipeEnd, first.endpoint = some pipeEnd →
    second.endpoint = some pipeEnd → first = second
  /-- When a call succeeds, the earlier calls of its side are decided. -/
  oldest : ∀ done ∈ s.results, ∀ pipeEnd, done.endpoint = some pipeEnd →
    ∀ earlier < done.call, ∀ clientId, s.calls[earlier]? = some ⟨pipeEnd.isServer, clientId⟩ → earlier ∈ s.decided

theorem matched_init : Matched {} := by
  constructor <;> simp [results]

theorem Queued.made_of_result (queued : Queued s) {done : MemPipeCompletion} (member : done ∈ s.results) :
    done.call < s.calls.length :=
  queued.made done.call (mem_decided_iff.mpr ⟨done, member, rfl⟩)

/-- The facts about successes survive a step that decides no success. -/
theorem Matched.keep (queued : Queued s) (inv : Matched s) {more : List MemPipeCall}
    (calls : t.calls = s.calls ++ more) (nextBuffers : t.nextBuffers = s.nextBuffers)
    (kept : ∀ done ∈ s.results, done ∈ t.results)
    (plain : ∀ done ∈ t.results, done ∈ s.results ∨
      (done.result = .canceled ∨ done.result = .timeout) ∧ done.endpoint = none) :
    Matched t := by
  have old {done : MemPipeCompletion} {pipeEnd : MemPipeEnd} (member : done ∈ t.results)
      (has : done.endpoint = some pipeEnd) : done ∈ s.results := by
    rcases plain done member with before | ⟨_, noEnd⟩
    · exact before
    · rw [noEnd] at has
      cases has
  constructor
  case outcomes =>
    intro done member
    rcases plain done member with before | ⟨withdrawn, _⟩
    · exact inv.outcomes done before
    · rcases withdrawn with canceled | timeout
      · simp [canceled]
      · simp [timeout]
  case successes =>
    intro done member
    rcases plain done member with before | ⟨withdrawn, noEnd⟩
    · exact inv.successes done before
    · rcases withdrawn with canceled | timeout
      · simp [canceled, noEnd]
      · simp [timeout, noEnd]
  case paired =>
    intro done member pipeEnd has
    obtain ⟨below, ⟨clientId, own⟩, other, otherDone, otherEnd⟩ := inv.paired done (old member has) pipeEnd has
    exact ⟨nextBuffers ▸ below, ⟨clientId, calls ▸ Table.push_old own⟩, other, kept other otherDone, otherEnd⟩
  case distinct =>
    intro first firstDone second secondDone pipeEnd firstHas secondHas
    exact inv.distinct first (old firstDone firstHas) second (old secondDone secondHas) pipeEnd firstHas secondHas
  case oldest =>
    intro done member pipeEnd has earlier before clientId own
    have wasDone := old member has
    rw [calls, List.getElem?_append_left (Nat.lt_trans before (queued.made_of_result wasDone))] at own
    obtain ⟨early, earlyDone, same⟩ := mem_decided_iff.mp
      (inv.oldest done wasDone pipeEnd has earlier before clientId own)
    exact mem_decided_iff.mpr ⟨early, kept early earlyDone, same⟩

theorem Matched.withdraw (queued : Queued s) (inv : Matched s) {gone : PromiseData → Bool} {result : PipeWaitRes}
    (withdrawn : result = .canceled ∨ result = .timeout) (withdraws : Withdraws side gone result s t) :
    Matched t := by
  apply inv.keep queued
  case calls => rw [withdraws.calls, List.append_nil]
  case nextBuffers => exact withdraws.nextBuffers
  case kept => exact fun done member => withdraws.decided.mem_iff.mpr (List.mem_append_right _ member)
  case plain =>
    intro done member
    rcases List.mem_append.mp (withdraws.decided.mem_iff.mp member) with new | old
    · obtain ⟨data, _, rfl⟩ := List.mem_map.mp new
      exact .inr ⟨withdrawn, rfl⟩
    · exact .inl old

section Call

variable {clientId : Nat} {timed : Bool}

theorem Matched.waitForOther (queued : Queued s) (inv : Matched s) :
    Matched (s.waitForOther clientId side timed) := by
  apply inv.keep queued
  case calls => rfl
  case nextBuffers => cases side <;> rfl
  case kept => exact fun done member => results_waitForOther.symm ▸ member
  case plain => exact fun done member => .inl (results_waitForOther ▸ member)

/-- A pair is new in both its results, its buffers, and passes over nobody. -/
theorem Matched.pairWith {first : PromiseData} {others : List PromiseData} (queued : Queued s) (inv : Matched s)
    (waiting : s.promises (!side) = first :: others) : Matched (s.pairWith clientId side first others) := by
  have firstWaits : first ∈ s.promises (!side) := waiting ▸ List.mem_cons_self
  have firstCall := queued.own (!side) first firstWaits
  have empty : s.promises side = [] := queued.empty_of_waiting waiting
  have calls : (s.pairWith clientId side first others).calls = s.calls ++ [⟨side, clientId⟩] := rfl
  have nextBuffers : (s.pairWith clientId side first others).nextBuffers = s.nextBuffers + 1 := rfl
  let waiter : MemPipeCompletion := ⟨first.promise, .success, some ⟨!side, s.nextBuffers⟩⟩
  let caller : MemPipeCompletion := ⟨s.calls.length, .success, some ⟨side, s.nextBuffers⟩⟩
  have mem_results {done : MemPipeCompletion} : done ∈ (s.pairWith clientId side first others).results ↔
      done = waiter ∨ done = caller ∨ done ∈ s.results := by
    rw [results_pairWith.mem_iff]
    simp [pairResults, waiter, caller]
  have earlierDone {number other : Nat} {any : Bool} (before : number < s.calls.length)
      (own : (s.calls ++ [⟨side, clientId⟩])[number]? = some ⟨any, other⟩)
      (notQueued : ∀ data ∈ s.promises any, data.promise ≠ number) :
      number ∈ (s.pairWith clientId side first others).decided := by
    rw [List.getElem?_append_left before] at own
    rw [decided_pairWith.mem_iff]
    rcases queued.accounted number _ own with done | ⟨data, member, same⟩
    · simp [done]
    · exact absurd same (notQueued data member)
  constructor
  case outcomes =>
    intro done member
    rcases mem_results.mp member with rfl | rfl | old
    · simp [waiter]
    · simp [caller]
    · exact inv.outcomes done old
  case successes =>
    intro done member
    rcases mem_results.mp member with rfl | rfl | old
    · simp [waiter]
    · simp [caller]
    · exact inv.successes done old
  case paired =>
    intro done member pipeEnd has
    rw [calls, nextBuffers]
    rcases mem_results.mp member with rfl | rfl | old
    · cases has
      refine ⟨Nat.lt_succ_self _, ⟨first.clientId, Table.push_old firstCall⟩, caller, ?_, by simp [caller]⟩
      exact mem_results.mpr (.inr (.inl rfl))
    · cases has
      refine ⟨Nat.lt_succ_self _, ⟨clientId, List.getElem?_concat_length⟩, waiter, ?_, rfl⟩
      exact mem_results.mpr (.inl rfl)
    · obtain ⟨below, ⟨ownId, own⟩, other, otherDone, otherEnd⟩ := inv.paired done old pipeEnd has
      refine ⟨Nat.lt_succ_of_lt below, ⟨ownId, Table.push_old own⟩, other, ?_, otherEnd⟩
      exact mem_results.mpr (.inr (.inr otherDone))
  case distinct =>
    intro one oneDone two twoDone pipeEnd oneHas twoHas
    have older {done : MemPipeCompletion} (member : done ∈ s.results) (has : done.endpoint = some pipeEnd) :
        pipeEnd.buffers < s.nextBuffers := (inv.paired done member pipeEnd has).1
    rcases mem_results.mp oneDone with rfl | rfl | oneOld <;>
      rcases mem_results.mp twoDone with rfl | rfl | twoOld
    · rfl
    · cases oneHas
      simp [caller] at twoHas
    · cases oneHas
      exact absurd (older twoOld twoHas) (Nat.lt_irrefl _)
    · cases oneHas
      simp [waiter] at twoHas
    · rfl
    · cases oneHas
      exact absurd (older twoOld twoHas) (Nat.lt_irrefl _)
    · cases twoHas
      exact absurd (older oneOld oneHas) (Nat.lt_irrefl _)
    · cases twoHas
      exact absurd (older oneOld oneHas) (Nat.lt_irrefl _)
    · exact inv.distinct one oneOld two twoOld pipeEnd oneHas twoHas
  case oldest =>
    intro done member pipeEnd has earlier before other own
    rw [calls] at own
    rcases mem_results.mp member with rfl | rfl | old
    · -- whoever else waits on the side of the waiter called after it
      cases has
      apply earlierDone (Nat.lt_trans before (List.getElem?_eq_some_iff.mp firstCall).1) own
      intro data waits same
      have order := queued.order (!side)
      rw [waiting] at waits order
      rcases List.mem_cons.mp waits with rfl | later
      · exact Nat.ne_of_gt before same
      · have after := ((List.pairwise_cons.mp order).1 data later).2
        rw [same] at after
        exact Nat.lt_asymm after before
    · -- nobody waits on the side of the caller
      cases has
      apply earlierDone before own
      intro data waits
      rw [empty] at waits
      cases waits
    · have made := queued.made_of_result old
      rw [List.getElem?_append_left (Nat.lt_trans before made)] at own
      have done := inv.oldest done old pipeEnd has earlier before other own
      rw [decided_pairWith.mem_iff]
      simp [done]

end Call

theorem step_matched {e : Event} (queued : Queued s) (inv : Matched s) (stepped : s.step e = some t) :
    Matched t := by
  cases step_move queued stepped with
  | waits clientId side timed empty => exact inv.waitForOther queued
  | pairs clientId side waiting => exact inv.pairWith queued waiting
  | withdraws withdrawn withdraws timers => exact inv.withdraw queued withdrawn withdraws

theorem run_matched {es : List Event} (ran : machine.run {} es = some s) : Matched s := by
  apply (Machine.run_invariant (P := fun s => Queued s ∧ Matched s) ?_ ⟨queued_init, matched_init⟩ ran).2
  intro a e b inv stepped
  exact ⟨step_queued inv.1 stepped, step_matched inv.1 inv.2 stepped⟩

/-- The calls that a run makes. -/
def called (es : List Event) : List MemPipeCall :=
  es.filterMap fun
    | .createPipe clientId _ => some ⟨true, clientId⟩
    | .openPipe clientId _ => some ⟨false, clientId⟩
    | _ => none

theorem calls_createNewPipeEnd (clientId : Nat) (isServer timed : Bool) :
    (s.createNewPipeEnd clientId isServer timed).calls = s.calls ++ [⟨isServer, clientId⟩] := by
  simp only [createNewPipeEnd]
  split
  · rfl
  · rfl

theorem step_calls {e : Event} (stepped : s.step e = some t) : t.calls = s.calls ++ called [e] := by
  have set (u : MemPipeEnv) (isServer : Bool) (queue : List PromiseData) :
      (u.setPromises isServer queue).calls = u.calls := by
    cases isServer <;> rfl
  cases e with
  | createPipe clientId timed =>
      cases stepped
      exact calls_createNewPipeEnd clientId true timed
  | openPipe clientId timed =>
      cases stepped
      exact calls_createNewPipeEnd clientId false timed
  | complete thread =>
      simp only [step] at stepped
      split at stepped
      · cases stepped
        exact (List.append_nil _).symm
      · cases stepped
  | timerExpires timerId =>
      obtain ⟨timer, _, rfl⟩ := Option.map_eq_some_iff.mp stepped
      exact (List.append_nil _).symm
  | timerHandler timerId =>
      obtain ⟨⟨timer, callback⟩, _, rfl⟩ := Option.map_eq_some_iff.mp stepped
      cases callback with
      | none => exact (List.append_nil _).symm
      | some callback =>
          simp only [removePromiseByTimeout]
          split
          · exact (List.append_nil _).symm
          · exact (set _ callback.1 _).trans (List.append_nil _).symm
  | cancelPendingClientEndpoints clientId | cancelPendingServerEndpoints clientId =>
      cases stepped
      exact (List.append_nil _).symm

theorem run_calls {es : List Event} (ran : machine.run {} es = some s) : s.calls = called es := by
  refine Machine.run_induction (P := fun es s => s.calls = called es) rfl ?_ ran
  intro es a e b _ before stepped
  rw [step_calls stepped, before, called, called, called, List.filterMap_append]

/-- The calls of `create_pipe` and `open_pipe` in every reachable state:
    * they are those the run makes, in its order;
    * nobody waits on one of the two sides;
    * a call is decided once, and waits or is decided but not both;
    * a call has an endpoint exactly if it succeeded; the endpoint has the role of its call, and the other end of
      its buffers went to exactly one call, of the other side;
    * when a call succeeds, no earlier call of its side is still waiting;
    * a cancellation withdraws exactly the waiting calls of its side with the client id it is given, and the
      handler of a timer exactly the waiting call that started the timer. -/
theorem calls_paired {es : List Event} (ran : machine.run {} es = some s) :
    s.calls = called es ∧
    (s.getPendingServerEndpointsCount = 0 ∨ s.getPendingClientEndpointsCount = 0) ∧
    s.decided.Nodup ∧
    (∀ number call, s.calls[number]? = some call → (number ∈ s.decided ↔
      ¬ ∃ data ∈ s.promises call.isServer, data.promise = number ∧ data.clientId = call.clientId)) ∧
    (∀ done ∈ s.results, done.result ≠ .failed ∧ (done.result = .success ↔ done.endpoint.isSome = true) ∧
      ∀ pipeEnd, done.endpoint = some pipeEnd →
        (∃ clientId, s.calls[done.call]? = some ⟨pipeEnd.isServer, clientId⟩) ∧
        (∃! other, other ∈ s.results ∧ other.endpoint = some ⟨!pipeEnd.isServer, pipeEnd.buffers⟩) ∧
        (∀ other ∈ s.results, other.endpoint = some pipeEnd → other = done) ∧
        ∀ earlier < done.call, ∀ clientId, s.calls[earlier]? = some ⟨pipeEnd.isServer, clientId⟩ →
          earlier ∈ s.decided) ∧
    (∀ clientId t, s.step (.cancelPendingServerEndpoints clientId) = some t →
      Withdraws true (wanted clientId) .canceled s t) ∧
    (∀ clientId t, s.step (.cancelPendingClientEndpoints clientId) = some t →
      Withdraws false (wanted clientId) .canceled s t) ∧
    ∀ timerId t, s.step (.timerHandler timerId) = some t →
      ∃ side, Withdraws side (fun data => data.timerId = some timerId) .timeout s t ∧
        ∀ data ∈ s.promises (!side), data.timerId ≠ some timerId := by
  have queued := run_queued ran
  have matched := run_matched ran
  refine ⟨run_calls ran, ?_, queued.once, ?_, ?_, ?_, ?_, ?_⟩
  · simp only [getPendingServerEndpointsCount, getPendingClientEndpointsCount, List.length_eq_zero_iff]
    exact queued.oneSided
  · intro number call found
    constructor
    · rintro done ⟨data, waits, rfl, _⟩
      exact queued.waiting _ data waits done
    · intro notWaiting
      rcases queued.accounted number call found with done | ⟨data, waits, rfl⟩
      · exact done
      · refine absurd ⟨data, waits, rfl, ?_⟩ notWaiting
        rw [queued.own _ data waits] at found
        rw [← Option.some.inj found]
  · intro done member
    refine ⟨matched.outcomes done member, matched.successes done member, ?_⟩
    intro pipeEnd has
    obtain ⟨_, own, other, otherDone, otherEnd⟩ := matched.paired done member pipeEnd has
    refine ⟨own, ⟨other, ⟨otherDone, otherEnd⟩, ?_⟩, ?_, matched.oldest done member pipeEnd has⟩
    · rintro another ⟨anotherDone, anotherEnd⟩
      exact matched.distinct another anotherDone other otherDone _ anotherEnd otherEnd
    · intro another anotherDone sameEnd
      exact matched.distinct another anotherDone done member pipeEnd sameEnd has
  · intro clientId t stepped
    cases stepped
    exact cancelPending_withdraws s clientId true
  · intro clientId t stepped
    cases stepped
    exact cancelPending_withdraws s clientId false
  · intro timerId t stepped
    obtain ⟨side, withdraws, _, nobody⟩ := timerHandler_withdraws queued stepped
    exact ⟨side, withdraws, nobody⟩

/-- Of two waiting `create_pipe` calls the first times out and the second is paired; a late timer callback of
    the second finds nothing to withdraw. Then three `open_pipe` calls wait: the first is cancelled, the second is
    paired, and the third still waits. -/
theorem calls_paired_example :
    ∃ s, machine.run {} [.createPipe 1 true, .createPipe 2 true, .timerExpires 0, .timerExpires 1,
        .timerHandler 0, .openPipe 7 true, .timerHandler 1, .openPipe 8 false, .openPipe 7 true, .openPipe 9 false,
        .cancelPendingClientEndpoints (some 8), .createPipe 1 false, .complete 0, .complete 1, .complete 1,
        .complete 2, .complete 3, .complete 3] = some s ∧
      (s.completions = [⟨0, .timeout, none⟩, ⟨1, .success, some ⟨true, 0⟩⟩, ⟨2, .success, some ⟨false, 0⟩⟩,
          ⟨3, .canceled, none⟩, ⟨4, .success, some ⟨false, 1⟩⟩, ⟨6, .success, some ⟨true, 1⟩⟩] ∧
        s.getPendingClientEndpointsCount = 1) ∧
      s.decided.Nodup :=
  Machine.exists_run ⟨_, rfl, rfl, rfl⟩ fun ran _ => (calls_paired ran).2.2.1

end MemPipeEnv

end CommonRpc
