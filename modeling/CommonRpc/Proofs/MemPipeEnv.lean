/-
Module: CommonRpc.Proofs.MemPipeEnv
Purpose: The waiting calls of `mem_pipe_env` over every interleaving of calls, timers, cancellations and threads
  that have yet to set their promises. A step adds a waiting call, pairs a call with the oldest waiting call of
  the other side, or withdraws waiting calls (`Move`). From that: every call waits or is decided, never both
  (`Queued`).
Trusted boundary: none
-/
import CommonRpc.Core.MemPipeEnv
import CommonRpc.Lib.Table
import CommonRpc.Proofs.MultipleTimer
import Mathlib.Data.List.Perm.Basic

namespace CommonRpc

namespace MemPipeEnv

open Lib

variable {s t : MemPipeEnv} {side : Bool}

/-- The results that are decided, whether or not their future is ready. -/
def results (s : MemPipeEnv) : List MemPipeCompletion := s.completing.flatten ++ s.completions

/-- The calls that are decided. -/
def decided (s : MemPipeEnv) : List Nat := s.results.map MemPipeCompletion.call

theorem mem_decided_iff {call : Nat} : call ∈ s.decided ↔ ∃ done ∈ s.results, done.call = call := by
  simp only [decided, List.mem_map]

/-- Where the calls are. -/
structure Queued (s : MemPipeEnv) : Prop where
  oneSided : s.promises true = [] ∨ s.promises false = []
  order : ∀ side, (s.promises side).Pairwise fun first second =>
    first.id < second.id ∧ first.promise < second.promise
  ids : ∀ side, ∀ data ∈ s.promises side, data.id < s.nextReadPromiseId
  own : ∀ side, ∀ data ∈ s.promises side, s.calls[data.promise]? = some ⟨side, data.clientId⟩
  waiting : ∀ side, ∀ data ∈ s.promises side, data.promise ∉ s.decided
  once : s.decided.Nodup
  made : ∀ call ∈ s.decided, call < s.calls.length
  accounted : ∀ number call, s.calls[number]? = some call →
    number ∈ s.decided ∨ ∃ data ∈ s.promises call.isServer, data.promise = number
  timers : s.timer.WellFormed
  armed : ∀ side, ∀ data ∈ s.promises side, ∀ timerId, data.timerId = some timerId → s.timer.Armed timerId
  captured : ∀ side, ∀ data ∈ s.promises side, ∀ timerId, data.timerId = some timerId →
    ∀ callback, s.timer.Calls timerId callback → callback = (side, data.id)
  belongs : ∀ timerId side id, s.timer.Calls timerId (side, id) → id < s.nextReadPromiseId ∧
    ∀ data ∈ s.promises side, data.id = id → data.timerId = some timerId

theorem queued_init : Queued {} := by
  constructor
  case timers => exact MultipleTimer.wellFormed_empty
  case belongs =>
    rintro timerId side id ⟨entry, member, -⟩
    cases member
  all_goals simp [promises, decided, results]

/-! ### Steps that withdraw waiting calls -/

/-- Of the calls that wait on `side`, exactly those that `gone` holds of are taken out and decided, with
    `result` and without an endpoint. -/
structure Withdraws (side : Bool) (gone : PromiseData → Bool) (result : PipeWaitRes) (s t : MemPipeEnv) :
    Prop where
  queue : t.promises side = (s.promises side).filter fun data => !gone data
  other : t.promises (!side) = s.promises (!side)
  decided : t.results.Perm
    (((s.promises side).filter gone).map (fun data => ⟨data.promise, result, none⟩) ++ s.results)
  calls : t.calls = s.calls
  nextBuffers : t.nextBuffers = s.nextBuffers
  nextReadPromiseId : t.nextReadPromiseId = s.nextReadPromiseId

/-- No timer is new, and the calls that still wait have kept theirs. -/
structure KeepsTimers (s t : MemPipeEnv) : Prop where
  shrinks : s.timer.Shrinks t.timer
  armed : ∀ side, ∀ data ∈ t.promises side, ∀ timerId, data.timerId = some timerId → s.timer.Armed timerId →
    t.timer.Armed timerId

theorem Withdraws.sublist {gone : PromiseData → Bool} {result : PipeWaitRes}
    (withdraws : Withdraws side gone result s t) (any : Bool) : (t.promises any).Sublist (s.promises any) := by
  by_cases same : any = side
  · rw [same, withdraws.queue]
    exact List.filter_sublist
  · rw [Bool.eq_not_of_ne same, withdraws.other]

/-- A step that leaves the queues and the results alone. -/
theorem Withdraws.none (promises : ∀ any, t.promises any = s.promises any) (results : t.results.Perm s.results)
    (calls : t.calls = s.calls) (nextBuffers : t.nextBuffers = s.nextBuffers)
    (nextReadPromiseId : t.nextReadPromiseId = s.nextReadPromiseId) {gone : PromiseData → Bool}
    {result : PipeWaitRes} (nobody : ∀ data ∈ s.promises side, gone data = false) :
    Withdraws side gone result s t where
  queue := by
    rw [promises side, eq_comm, List.filter_eq_self]
    intro data member
    simp [nobody data member]
  other := promises _
  decided := by
    have empty : (s.promises side).filter gone = [] := by
      rw [List.filter_eq_nil_iff]
      intro data member
      simp [nobody data member]
    rwa [empty]
  calls := calls
  nextBuffers := nextBuffers
  nextReadPromiseId := nextReadPromiseId

theorem Withdraws.mem_decided {gone : PromiseData → Bool} {result : PipeWaitRes}
    (withdraws : Withdraws side gone result s t) {call : Nat} :
    call ∈ t.decided ↔ call ∈ s.decided ∨ ∃ data ∈ s.promises side, gone data = true ∧ data.promise = call := by
  simp only [mem_decided_iff, withdraws.decided.mem_iff, List.mem_append, List.mem_map, List.mem_filter]
  constructor
  · rintro ⟨done, ⟨data, ⟨member, goes⟩, rfl⟩ | old, rfl⟩
    · exact .inr ⟨data, member, goes, rfl⟩
    · exact .inl ⟨done, old, rfl⟩
  · rintro (⟨done, old, rfl⟩ | ⟨data, member, goes, rfl⟩)
    · exact ⟨done, .inr old, rfl⟩
    · exact ⟨_, .inl ⟨data, ⟨member, goes⟩, rfl⟩, rfl⟩

/-- A promise id, and a call, has one record in a queue. -/
theorem Queued.order_inj (inv : Queued s) {first second : PromiseData} (firstWaits : first ∈ s.promises side)
    (secondWaits : second ∈ s.promises side) (same : first.id = second.id ∨ first.promise = second.promise) :
    first = second := by
  rcases same with sameId | samePromise
  · have distinct : ((s.promises side).map PromiseData.id).Nodup :=
      List.pairwise_map.mpr ((inv.order side).imp fun before => Nat.ne_of_lt before.1)
    exact List.inj_on_of_nodup_map distinct firstWaits secondWaits sameId
  · have distinct : ((s.promises side).map PromiseData.promise).Nodup :=
      List.pairwise_map.mpr ((inv.order side).imp fun before => Nat.ne_of_lt before.2)
    exact List.inj_on_of_nodup_map distinct firstWaits secondWaits samePromise

/-- A timer belongs to one waiting call at most. -/
theorem Queued.timer_inj (inv : Queued s) {any : Bool} {first second : PromiseData} {timerId : Nat}
    (firstWaits : first ∈ s.promises side) (secondWaits : second ∈ s.promises any)
    (firstTimer : first.timerId = some timerId) (secondTimer : second.timerId = some timerId) :
    side = any ∧ first = second := by
  obtain ⟨callback, calls⟩ := (inv.armed side first firstWaits timerId firstTimer).calls
  have ofFirst := inv.captured side first firstWaits timerId firstTimer callback calls
  have ofSecond := inv.captured any second secondWaits timerId secondTimer callback calls
  rw [ofFirst] at ofSecond
  injection ofSecond with sameSide sameId
  subst sameSide
  exact ⟨rfl, inv.order_inj firstWaits secondWaits (.inl sameId)⟩

/-- A withdrawn call is decided, and every other call is where it was. -/
theorem Queued.withdraw (inv : Queued s) {gone : PromiseData → Bool} {result : PipeWaitRes}
    (withdraws : Withdraws side gone result s t) (timers : KeepsTimers s t) : Queued t := by
  have sub (any : Bool) {data : PromiseData} (member : data ∈ t.promises any) : data ∈ s.promises any :=
    (withdraws.sublist any).subset member
  have kept {data : PromiseData} (member : data ∈ t.promises side) : gone data = false := by
    rw [withdraws.queue] at member
    simpa using (List.mem_filter.mp member).2
  constructor
  case oneSided =>
    rcases inv.oneSided with noServer | noClient
    · exact .inl (List.sublist_nil.mp (noServer ▸ withdraws.sublist true))
    · exact .inr (List.sublist_nil.mp (noClient ▸ withdraws.sublist false))
  case order => exact fun any => (inv.order any).sublist (withdraws.sublist any)
  case ids =>
    intro any data member
    rw [withdraws.nextReadPromiseId]
    exact inv.ids any data (sub any member)
  case own =>
    intro any data member
    rw [withdraws.calls]
    exact inv.own any data (sub any member)
  case waiting =>
    intro any data member done
    rcases withdraws.mem_decided.mp done with before | ⟨other, otherWaits, goes, same⟩
    · exact inv.waiting any data (sub any member) before
    · -- both records belong to one call, so they wait on one side and are one record
      have ownSide := inv.own any data (sub any member)
      rw [← same, inv.own side other otherWaits] at ownSide
      obtain rfl : side = any := by
        injection ownSide with call
        injection call
      have equal := inv.order_inj otherWaits (sub side member) (.inr same)
      rw [equal, kept member] at goes
      cases goes
  case once =>
    have perm : t.decided.Perm (((s.promises side).filter gone).map PromiseData.promise ++ s.decided) := by
      have mapped := withdraws.decided.map MemPipeCompletion.call
      rwa [List.map_append, List.map_map] at mapped
    rw [perm.nodup_iff, List.nodup_append]
    refine ⟨?_, inv.once, ?_⟩
    · have sorted : ((s.promises side).filter gone).Pairwise fun first second => first.promise ≠ second.promise :=
        ((inv.order side).sublist List.filter_sublist).imp fun before => Nat.ne_of_lt before.2
      exact List.pairwise_map.mpr sorted
    · intro call taken other done same
      obtain ⟨data, member, rfl⟩ := List.mem_map.mp taken
      exact inv.waiting side data (List.mem_filter.mp member).1 (same ▸ done)
  case made =>
    intro call done
    rw [withdraws.calls]
    rcases withdraws.mem_decided.mp done with before | ⟨data, member, _, rfl⟩
    · exact inv.made call before
    · exact (List.getElem?_eq_some_iff.mp (inv.own side data member)).1
  case accounted =>
    intro number call found
    rw [withdraws.calls] at found
    rcases inv.accounted number call found with done | ⟨data, member, own⟩
    · exact .inl (withdraws.mem_decided.mpr (.inl done))
    · by_cases here : call.isServer = side
      · cases goes : gone data with
        | true => exact .inl (withdraws.mem_decided.mpr (.inr ⟨data, here ▸ member, goes, own⟩))
        | false =>
            refine .inr ⟨data, ?_, own⟩
            rw [here, withdraws.queue]
            exact List.mem_filter.mpr ⟨here ▸ member, by simp [goes]⟩
      · refine .inr ⟨data, ?_, own⟩
        rw [Bool.eq_not_of_ne here] at member ⊢
        rwa [withdraws.other]
  case timers => exact timers.shrinks.wellFormed inv.timers
  case armed =>
    intro any data member timerId mine
    exact timers.armed any data member timerId mine (inv.armed any data (sub any member) timerId mine)
  case captured =>
    intro any data member timerId mine callback calls
    exact inv.captured any data (sub any member) timerId mine callback (timers.shrinks.calls calls)
  case belongs =>
    intro timerId any id calls
    obtain ⟨below, only⟩ := inv.belongs timerId any id (timers.shrinks.calls calls)
    rw [withdraws.nextReadPromiseId]
    exact ⟨below, fun data member => only data (sub any member)⟩

/-! ### Calls that wait and calls that are paired -/

section Call

variable {clientId : Nat} {timed : Bool}

theorem promises_waitForOther :
    (s.waitForOther clientId side timed).promises side =
      s.promises side ++ [s.newPromiseData clientId timed] := by
  cases side <;> rfl

theorem promises_waitForOther_other :
    (s.waitForOther clientId side timed).promises (!side) = s.promises (!side) := by
  cases side <;> rfl

theorem results_waitForOther : (s.waitForOther clientId side timed).results = s.results := by
  cases side <;> rfl

/-- A waiting record after the call: an old one, or that of the call. -/
theorem mem_waitForOther {any : Bool} {data : PromiseData}
    (member : data ∈ (s.waitForOther clientId side timed).promises any) :
    data ∈ s.promises any ∨ any = side ∧ data = s.newPromiseData clientId timed := by
  by_cases here : any = side
  · rw [here, promises_waitForOther] at member
    rw [here]
    rcases List.mem_append.mp member with old | new
    · exact .inl old
    · exact .inr ⟨rfl, List.mem_singleton.mp new⟩
  · rw [Bool.eq_not_of_ne here, promises_waitForOther_other] at member
    rw [Bool.eq_not_of_ne here]
    exact .inl member

theorem mem_waitForOther_of_mem {any : Bool} {data : PromiseData} (member : data ∈ s.promises any) :
    data ∈ (s.waitForOther clientId side timed).promises any := by
  by_cases here : any = side
  · rw [here, promises_waitForOther]
    exact List.mem_append_left _ (here ▸ member)
  · rw [Bool.eq_not_of_ne here, promises_waitForOther_other, ← Bool.eq_not_of_ne here]
    exact member

theorem newPromiseData_timerId {timerId : Nat} :
    (s.newPromiseData clientId timed).timerId = some timerId ↔ timed = true ∧ timerId = s.timer.nextId := by
  cases timed <;> simp [newPromiseData, eq_comm]

/-- The timer of a call with a timeout is new, and is there for the record of the call. -/
theorem calls_waitForOther {timerId : Nat} {callback : Bool × Nat} :
    (s.waitForOther clientId side timed).timer.Calls timerId callback ↔
      s.timer.Calls timerId callback ∨
        (timed = true ∧ timerId = s.timer.nextId) ∧ callback = (side, s.nextReadPromiseId) := by
  cases timed <;> simp [waitForOther, eq_comm]

theorem armed_waitForOther {timerId : Nat} :
    (s.waitForOther clientId side timed).timer.Armed timerId ↔
      s.timer.Armed timerId ∨ timed = true ∧ timerId = s.timer.nextId := by
  cases timed <;> simp [waitForOther]

/-- With nobody waiting on the other side, the call waits on its own. -/
theorem Queued.waitForOther (inv : Queued s) (empty : s.promises (!side) = []) :
    Queued (s.waitForOther clientId side timed) := by
  have calls : (s.waitForOther clientId side timed).calls = s.calls ++ [⟨side, clientId⟩] := rfl
  have decided : (s.waitForOther clientId side timed).decided = s.decided := by
    simp only [MemPipeEnv.decided, results_waitForOther]
  have ids : (s.waitForOther clientId side timed).nextReadPromiseId = s.nextReadPromiseId + 1 := rfl
  constructor
  case oneSided =>
    have still : (s.waitForOther clientId side timed).promises (!side) = [] :=
      promises_waitForOther_other.trans empty
    cases side with
    | true => exact .inr still
    | false => exact .inl still
  case order =>
    intro any
    by_cases here : any = side
    · rw [here, promises_waitForOther, List.pairwise_append]
      refine ⟨inv.order side, List.pairwise_singleton _ _, ?_⟩
      intro data member new isNew
      rw [List.mem_singleton.mp isNew]
      exact ⟨inv.ids side data member, (List.getElem?_eq_some_iff.mp (inv.own side data member)).1⟩
    · rw [Bool.eq_not_of_ne here, promises_waitForOther_other]
      exact inv.order _
  case ids =>
    intro any data member
    rw [ids]
    rcases mem_waitForOther member with old | ⟨rfl, rfl⟩
    · exact Nat.lt_succ_of_lt (inv.ids any data old)
    · exact Nat.lt_succ_self _
  case own =>
    intro any data member
    rw [calls]
    rcases mem_waitForOther member with old | ⟨rfl, rfl⟩
    · exact Table.push_old (inv.own any data old)
    · exact List.getElem?_concat_length
  case waiting =>
    intro any data member done
    rw [decided] at done
    rcases mem_waitForOther member with old | ⟨rfl, rfl⟩
    · exact inv.waiting any data old done
    · exact Nat.lt_irrefl _ (inv.made _ done)
  case once => exact decided ▸ inv.once
  case made =>
    intro call done
    rw [decided] at done
    rw [calls, List.length_append]
    exact Nat.lt_succ_of_lt (inv.made call done)
  case accounted =>
    intro number call found
    rw [calls] at found
    rw [decided]
    rcases Table.push_cases found with old | ⟨rfl, rfl⟩
    · rcases inv.accounted number call old with done | ⟨data, member, own⟩
      · exact .inl done
      · exact .inr ⟨data, mem_waitForOther_of_mem member, own⟩
    · refine .inr ⟨s.newPromiseData clientId timed, ?_, rfl⟩
      rw [promises_waitForOther]
      exact List.mem_append_right _ List.mem_cons_self
  case timers =>
    cases timed with
    | true => exact inv.timers.start _
    | false => exact inv.timers
  case armed =>
    intro any data member timerId mine
    rw [armed_waitForOther]
    rcases mem_waitForOther member with old | ⟨rfl, rfl⟩
    · exact .inl (inv.armed any data old timerId mine)
    · exact .inr (newPromiseData_timerId.mp mine)
  case captured =>
    intro any data member timerId mine callback calls
    rcases mem_waitForOther member with old | ⟨rfl, rfl⟩ <;>
      rcases calls_waitForOther.mp calls with before | ⟨⟨_, new⟩, captured⟩
    · exact inv.captured any data old timerId mine callback before
    · -- an old timer has not the id of the new one
      obtain ⟨_, runs⟩ := (inv.armed any data old timerId mine).calls
      exact absurd new (Nat.ne_of_lt (inv.timers.calls_lt runs))
    · exact absurd (newPromiseData_timerId.mp mine).2 (Nat.ne_of_lt (inv.timers.calls_lt before))
    · exact captured
  case belongs =>
    intro timerId any id calls
    rw [ids]
    rcases calls_waitForOther.mp calls with before | ⟨isNew, captured⟩
    · obtain ⟨below, only⟩ := inv.belongs timerId any id before
      refine ⟨Nat.lt_succ_of_lt below, ?_⟩
      intro data member same
      rcases mem_waitForOther member with old | ⟨rfl, rfl⟩
      · exact only data old same
      · exact absurd same (Nat.ne_of_gt below)
    · cases captured
      refine ⟨Nat.lt_succ_self _, ?_⟩
      intro data member same
      rcases mem_waitForOther member with old | ⟨_, rfl⟩
      · exact absurd same (Nat.ne_of_lt (inv.ids _ data old))
      · exact newPromiseData_timerId.mpr isNew

variable {first : PromiseData} {others : List PromiseData}

theorem promises_pairWith : (s.pairWith clientId side first others).promises side = s.promises side := by
  cases side <;> rfl

theorem promises_pairWith_other : (s.pairWith clientId side first others).promises (!side) = others := by
  cases side <;> rfl

/-- The two results of a pair. -/
def pairResults (s : MemPipeEnv) (side : Bool) (first : PromiseData) : List MemPipeCompletion :=
  [⟨first.promise, .success, some ⟨!side, s.nextBuffers⟩⟩, ⟨s.calls.length, .success, some ⟨side, s.nextBuffers⟩⟩]

theorem results_pairWith :
    (s.pairWith clientId side first others).results.Perm (s.pairResults side first ++ s.results) := by
  have flat : (s.pairWith clientId side first others).results =
      (s.completing ++ [s.pairResults side first]).flatten ++ s.completions := by
    cases side <;> rfl
  rw [flat, List.flatten_append, List.flatten_singleton, results, ← List.append_assoc]
  exact List.perm_append_comm.append_right _

theorem decided_pairWith :
    (s.pairWith clientId side first others).decided.Perm (first.promise :: s.calls.length :: s.decided) :=
  results_pairWith.map _

theorem Queued.empty_of_waiting (inv : Queued s) (waiting : s.promises (!side) = first :: others) :
    s.promises side = [] := by
  cases side with
  | true => exact inv.oneSided.resolve_right fun none => by cases waiting.symm.trans none
  | false => exact inv.oneSided.resolve_left fun none => by cases waiting.symm.trans none

/-- The oldest waiting call of the other side leaves its queue. -/
theorem Queued.pairWith (inv : Queued s) (waiting : s.promises (!side) = first :: others) :
    Queued (s.pairWith clientId side first others) := by
  have empty : s.promises side = [] := inv.empty_of_waiting waiting
  have order := inv.order (!side)
  rw [waiting, List.pairwise_cons] at order
  have sub {any : Bool} {data : PromiseData}
      (member : data ∈ (s.pairWith clientId side first others).promises any) :
      data ∈ s.promises any ∧ any = !side ∧ data ∈ others := by
    by_cases here : any = side
    · rw [here, promises_pairWith, empty] at member
      cases member
    · obtain rfl := Bool.eq_not_of_ne here
      rw [promises_pairWith_other] at member
      exact ⟨waiting ▸ List.mem_cons_of_mem _ member, rfl, member⟩
  have firstWaits : first ∈ s.promises (!side) := waiting ▸ List.mem_cons_self
  have firstMade : first.promise < s.calls.length :=
    (List.getElem?_eq_some_iff.mp (inv.own _ first firstWaits)).1
  have calls : (s.pairWith clientId side first others).calls = s.calls ++ [⟨side, clientId⟩] := rfl
  have timer : (s.pairWith clientId side first others).timer = s.timer.cancelOptional first.timerId := rfl
  have ids : (s.pairWith clientId side first others).nextReadPromiseId = s.nextReadPromiseId := by
    cases side <;> rfl
  have shrinks := MultipleTimer.shrinks_cancelOptional s.timer first.timerId
  constructor
  case oneSided =>
    have still : (s.pairWith clientId side first others).promises side = [] := promises_pairWith.trans empty
    cases side with
    | true => exact .inl still
    | false => exact .inr still
  case order =>
    intro any
    by_cases here : any = side
    · rw [here, promises_pairWith, empty]
      exact List.Pairwise.nil
    · rw [Bool.eq_not_of_ne here, promises_pairWith_other]
      exact order.2
  case ids =>
    intro any data member
    rw [ids]
    exact inv.ids any data (sub member).1
  case own =>
    intro any data member
    rw [calls]
    exact Table.push_old (inv.own any data (sub member).1)
  case waiting =>
    intro any data member done
    obtain ⟨waits, _, inOthers⟩ := sub member
    rcases List.mem_cons.mp (decided_pairWith.mem_iff.mp done) with isFirst | other
    · exact Nat.ne_of_gt (order.1 data inOthers).2 isFirst
    · rcases List.mem_cons.mp other with isCaller | before
      · exact Nat.ne_of_lt (List.getElem?_eq_some_iff.mp (inv.own any data waits)).1 isCaller
      · exact inv.waiting any data waits before
  case once =>
    rw [decided_pairWith.nodup_iff, List.nodup_cons, List.nodup_cons]
    refine ⟨?_, fun done => Nat.lt_irrefl _ (inv.made _ done), inv.once⟩
    intro member
    rcases List.mem_cons.mp member with isCaller | before
    · exact Nat.ne_of_lt firstMade isCaller
    · exact inv.waiting _ first firstWaits before
  case made =>
    intro call done
    rw [calls, List.length_append]
    rcases List.mem_cons.mp (decided_pairWith.mem_iff.mp done) with rfl | other
    · exact Nat.lt_succ_of_lt firstMade
    · rcases List.mem_cons.mp other with rfl | before
      · exact Nat.lt_succ_self _
      · exact Nat.lt_succ_of_lt (inv.made call before)
  case accounted =>
    intro number call found
    rw [calls] at found
    have done {number : Nat} (member : number ∈ first.promise :: s.calls.length :: s.decided) :
        number ∈ (s.pairWith clientId side first others).decided := decided_pairWith.mem_iff.mpr member
    rcases Table.push_cases found with old | ⟨rfl, rfl⟩
    · rcases inv.accounted number call old with before | ⟨data, member, rfl⟩
      · exact .inl (done (by simp [before]))
      · by_cases here : call.isServer = side
        · rw [here, empty] at member
          cases member
        · rw [Bool.eq_not_of_ne here] at member ⊢
          rw [waiting] at member
          rcases List.mem_cons.mp member with rfl | later
          · exact .inl (done List.mem_cons_self)
          · exact .inr ⟨data, promises_pairWith_other.symm ▸ later, rfl⟩
    · exact .inl (done (by simp))
  case timers => exact timer ▸ shrinks.wellFormed inv.timers
  case armed =>
    intro any data member timerId mine
    obtain ⟨waits, rfl, inOthers⟩ := sub member
    rw [timer, MultipleTimer.armed_cancelOptional]
    refine ⟨inv.armed _ data waits timerId mine, ?_⟩
    intro cancelled
    have same := (inv.timer_inj firstWaits waits cancelled mine).2
    exact Nat.lt_irrefl _ (same ▸ (order.1 data inOthers).1)
  case captured =>
    intro any data member timerId mine callback calls
    exact inv.captured any data (sub member).1 timerId mine callback (shrinks.calls (timer ▸ calls))
  case belongs =>
    intro timerId any id calls
    obtain ⟨below, only⟩ := inv.belongs timerId any id (shrinks.calls (timer ▸ calls))
    rw [ids]
    exact ⟨below, fun data member => only data (sub member).1⟩

end Call

/-! ### Cancellations and timeouts withdraw calls -/

/-- What the cancellation loop keeps in the queue, completes and leaves armed. -/
theorem cancelLoop_spec (clientId : Option Nat) (queue : List PromiseData) (timer : MultipleTimer (Bool × Nat)) :
    (cancelLoop clientId queue timer).1 = queue.filter (fun data => !wanted clientId data) ∧
      (cancelLoop clientId queue timer).2.2 = (queue.filter (wanted clientId)).map PromiseData.promise ∧
      timer.Shrinks (cancelLoop clientId queue timer).2.1 ∧
      ∀ i, (cancelLoop clientId queue timer).2.1.Armed i ↔
        timer.Armed i ∧ ∀ data ∈ queue, wanted clientId data = true → data.timerId ≠ some i := by
  induction queue generalizing timer with
  | nil => exact ⟨rfl, rfl, MultipleTimer.Shrinks.refl timer, by simp [cancelLoop]⟩
  | cons data rest ih =>
      cases goes : wanted clientId data with
      | true =>
          obtain ⟨kept, completed, shrinks, armed⟩ := ih (timer.cancelOptional data.timerId)
          simp only [cancelLoop, goes, if_true]
          refine ⟨by simp [kept, goes], by simp [completed, goes],
            (MultipleTimer.shrinks_cancelOptional timer _).trans shrinks, ?_⟩
          intro i
          simp [armed, goes, and_assoc]
      | false =>
          obtain ⟨kept, completed, shrinks, armed⟩ := ih timer
          simp only [cancelLoop, goes, Bool.false_eq_true, if_false]
          refine ⟨by simp [kept, goes], by simp [completed, goes], shrinks, ?_⟩
          intro i
          simp [armed, goes]

theorem cancelPending_withdraws (s : MemPipeEnv) (clientId : Option Nat) (side : Bool) :
    Withdraws side (wanted clientId) .canceled s (s.cancelPendingEndpoints clientId side) := by
  obtain ⟨kept, completed, _, _⟩ := cancelLoop_spec clientId (s.promises side) s.timer
  constructor
  case queue =>
    rw [← kept]
    cases side <;> rfl
  case decided =>
    have flat : (s.cancelPendingEndpoints clientId side).results =
        (s.completing ++ [(cancelLoop clientId (s.promises side) s.timer).2.2.map
          fun promise => (⟨promise, .canceled, none⟩ : MemPipeCompletion)]).flatten ++ s.completions := by
      cases side <;> rfl
    rw [flat, completed, List.flatten_append, List.flatten_singleton, results, ← List.append_assoc, List.map_map]
    exact List.perm_append_comm.append_right _
  all_goals cases side <;> rfl

theorem cancelPending_timers (inv : Queued s) (clientId : Option Nat) (side : Bool) :
    KeepsTimers s (s.cancelPendingEndpoints clientId side) := by
  obtain ⟨_, _, shrinks, armed⟩ := cancelLoop_spec clientId (s.promises side) s.timer
  have withdraws := cancelPending_withdraws s clientId side
  refine ⟨shrinks, ?_⟩
  intro any data member timerId mine running
  refine (armed timerId).mpr ⟨running, ?_⟩
  intro other otherWaits goes same
  obtain ⟨rfl, rfl⟩ := inv.timer_inj otherWaits ((withdraws.sublist any).subset member) same mine
  rw [withdraws.queue] at member
  have stays := (List.mem_filter.mp member).2
  rw [goes] at stays
  cases stays

/-- Erasing by a promise id takes one record out. -/
theorem erase_by_id {queue : List PromiseData} {id : Nat} {data : PromiseData}
    (order : queue.Pairwise fun first second => first.id < second.id ∧ first.promise < second.promise)
    (found : queue.find? (fun data => data.id = id) = some data) :
    queue.eraseP (fun data => data.id = id) = queue.filter (fun data => !decide (data.id = id)) ∧
      queue.filter (fun data => data.id = id) = [data] := by
  obtain ⟨mine, before, after, rfl, apart⟩ := List.find?_eq_some_iff_append.mp found
  have later : ∀ other ∈ after, other.id ≠ id := by
    intro other member same
    have ordered := (List.pairwise_cons.mp (List.pairwise_append.mp order).2.1).1 other member
    rw [of_decide_eq_true mine, same] at ordered
    exact Nat.lt_irrefl _ ordered.1
  have earlier : ∀ other ∈ before, other.id ≠ id := by simpa using apart
  have notBefore : before.filter (fun data => decide (data.id = id)) = [] := by simpa using earlier
  have notAfter : after.filter (fun data => decide (data.id = id)) = [] := by simpa using later
  have allBefore : before.filter (fun data => !decide (data.id = id)) = before := by simpa using earlier
  have allAfter : after.filter (fun data => !decide (data.id = id)) = after := by simpa using later
  constructor
  · have erased : (before ++ data :: after).eraseP (fun data => decide (data.id = id)) = before ++ after := by
      rw [List.eraseP_append_right _ (by simpa using earlier)]
      simp [of_decide_eq_true mine]
    simp only [erased, List.filter_append, List.filter_cons, mine, Bool.not_true, Bool.false_eq_true, if_false,
      allBefore, allAfter]
  · simp only [List.filter_append, List.filter_cons, mine, if_true, notBefore, notAfter, List.nil_append]

/-- The record a callback looks for is that of the call its timer belongs to. -/
theorem Queued.timer_iff (inv : Queued s) {timerId id : Nat} (calls : s.timer.Calls timerId (side, id))
    {data : PromiseData} (waits : data ∈ s.promises side) : data.id = id ↔ data.timerId = some timerId := by
  constructor
  · exact (inv.belongs timerId side id calls).2 data waits
  · intro mine
    have captured := inv.captured side data waits timerId mine _ calls
    injection captured with _ same
    exact same.symm

theorem Withdraws.congr {gone gone' : PromiseData → Bool} {result : PipeWaitRes}
    (withdraws : Withdraws side gone result s t) (same : ∀ data ∈ s.promises side, gone data = gone' data) :
    Withdraws side gone' result s t := by
  have kept : (s.promises side).filter (fun data => !gone data) =
      (s.promises side).filter fun data => !gone' data :=
    List.filter_congr fun data member => by rw [same data member]
  have taken : (s.promises side).filter gone = (s.promises side).filter gone' := List.filter_congr same
  exact { withdraws with queue := kept ▸ withdraws.queue, decided := taken ▸ withdraws.decided }

theorem removePromiseByTimeout_withdraws (id : Nat)
    (order : (s.promises side).Pairwise fun first second =>
      first.id < second.id ∧ first.promise < second.promise) :
    Withdraws side (fun data => data.id = id) .timeout s (s.removePromiseByTimeout side id) := by
  simp only [removePromiseByTimeout]
  split
  · rename_i nothing
    apply Withdraws.none (fun _ => rfl) (List.Perm.refl _) rfl rfl rfl
    simpa using nothing
  · rename_i data found
    obtain ⟨erased, taken⟩ := erase_by_id order found
    rw [erased]
    constructor
    case queue => cases side <;> rfl
    case decided =>
      have flat (queue : List PromiseData) (lists : List (List MemPipeCompletion)) :
          results { s.setPromises side queue with completing := lists } = lists.flatten ++ s.completions := by
        cases side <;> rfl
      rw [flat, taken, List.flatten_append, List.flatten_singleton, results, ← List.append_assoc]
      exact List.perm_append_comm.append_right _
    all_goals cases side <;> rfl

theorem timer_removePromiseByTimeout (id : Nat) : (s.removePromiseByTimeout side id).timer = s.timer := by
  simp only [removePromiseByTimeout]
  split
  · rfl
  · cases side <;> rfl

/-- The handler of a timer withdraws the call the timer belongs to, if that call still waits. -/
theorem timerHandler_withdraws (inv : Queued s) {timerId : Nat}
    (stepped : s.step (.timerHandler timerId) = some t) :
    ∃ side, Withdraws side (fun data => data.timerId = some timerId) .timeout s t ∧ KeepsTimers s t ∧
      ∀ data ∈ s.promises (!side), data.timerId ≠ some timerId := by
  obtain ⟨⟨timer, callback⟩, handled, rfl⟩ := Option.map_eq_some_iff.mp stepped
  have shrinks := MultipleTimer.shrinks_handle handled
  -- the other timers stay armed, so it is enough that nobody who still waits has this one
  have keeps (t : MemPipeEnv) (timerOf : t.timer = timer)
      (nobody : ∀ any, ∀ data ∈ t.promises any, data.timerId ≠ some timerId) : KeepsTimers s t := by
    refine ⟨timerOf ▸ shrinks, ?_⟩
    intro any data member other mine running
    rw [timerOf, MultipleTimer.armed_handle handled]
    refine ⟨running, ?_⟩
    rintro rfl
    exact nobody any data member mine
  cases callback with
  | none =>
      have nobody : ∀ any, ∀ data ∈ s.promises any, data.timerId ≠ some timerId := by
        intro any data member mine
        exact inv.timers.not_armed_of_handle handled (inv.armed any data member timerId mine)
      have withdraws : Withdraws true (fun data => data.timerId = some timerId) .timeout s
          { s with timer := timer } :=
        Withdraws.none (s := s) (t := { s with timer := timer }) (fun _ => rfl) (List.Perm.refl _) rfl rfl rfl
          (by simpa using nobody true)
      exact ⟨true, withdraws, keeps _ rfl nobody, nobody _⟩
  | some callback =>
      obtain ⟨side, id⟩ := callback
      have calls := MultipleTimer.calls_of_handle handled
      have otherSide : ∀ data ∈ s.promises (!side), data.timerId ≠ some timerId := by
        intro data member mine
        have captured := inv.captured _ data member timerId mine _ calls
        injection captured with sameSide
        cases side <;> cases sameSide
      obtain ⟨queue, other, decided, called, nextBuffers, nextId⟩ :=
        removePromiseByTimeout_withdraws (s := { s with timer := timer }) id (inv.order side)
      have byId : Withdraws side (fun data => data.id = id) .timeout s
          ({ s with timer := timer }.removePromiseByTimeout side id) :=
        ⟨queue, other, decided, called, nextBuffers, nextId⟩
      have withdraws : Withdraws side (fun data => data.timerId = some timerId) .timeout s
          ({ s with timer := timer }.removePromiseByTimeout side id) :=
        byId.congr fun data member => by simp [inv.timer_iff calls member]
      refine ⟨side, withdraws, keeps _ (timer_removePromiseByTimeout id) ?_, otherSide⟩
      intro any data member mine
      by_cases here : any = side
      · rw [here, withdraws.queue] at member
        simpa [mine] using (List.mem_filter.mp member).2
      · rw [Bool.eq_not_of_ne here, withdraws.other] at member
        exact otherSide data member mine

/-! ### Every step and every run -/

/-- What a step does to the queues. -/
inductive Move (s : MemPipeEnv) : MemPipeEnv → Prop where
  | waits (clientId : Nat) (side timed : Bool) : s.promises (!side) = [] →
      Move s (s.waitForOther clientId side timed)
  | pairs (clientId : Nat) (side : Bool) {first : PromiseData} {others : List PromiseData} :
      s.promises (!side) = first :: others → Move s (s.pairWith clientId side first others)
  | withdraws {side : Bool} {gone : PromiseData → Bool} {result : PipeWaitRes} {t : MemPipeEnv} :
      result = .canceled ∨ result = .timeout → Withdraws side gone result s t → KeepsTimers s t → Move s t

theorem createNewPipeEnd_move (clientId : Nat) (side timed : Bool) :
    Move s (s.createNewPipeEnd clientId side timed) := by
  simp only [createNewPipeEnd]
  split
  · exact .waits clientId side timed ‹_›
  · exact .pairs clientId side ‹_›

theorem cancelPending_move (inv : Queued s) (clientId : Option Nat) (side : Bool) :
    Move s (s.cancelPendingEndpoints clientId side) :=
  .withdraws (.inl rfl) (cancelPending_withdraws s clientId side) (cancelPending_timers inv clientId side)

/-- A future becomes ready; its result was decided before. -/
theorem results_complete {thread : Nat} {completion : MemPipeCompletion} {rest : List MemPipeCompletion}
    (found : s.completing[thread]? = some (completion :: rest)) :
    ((s.completing.set thread rest).flatten ++ (s.completions ++ [completion])).Perm s.results := by
  obtain ⟨inRange, place⟩ := List.getElem?_eq_some_iff.mp found
  obtain ⟨before, after, lists, _, changed⟩ : ∃ before after,
      s.completing = before ++ s.completing[thread] :: after ∧ before.length = thread ∧
        s.completing.set thread rest = before ++ rest :: after :=
    List.exists_of_set inRange
  rw [place] at lists
  rw [changed, results, lists, ← List.append_assoc]
  apply (List.perm_append_singleton completion _).trans
  simp only [List.flatten_append, List.flatten_cons, List.append_assoc, List.cons_append]
  exact List.perm_middle.symm

theorem step_move {e : Event} (inv : Queued s) (stepped : s.step e = some t) : Move s t := by
  cases e with
  | createPipe clientId timed =>
      cases stepped
      exact createNewPipeEnd_move clientId true timed
  | openPipe clientId timed =>
      cases stepped
      exact createNewPipeEnd_move clientId false timed
  | complete thread =>
      simp only [step] at stepped
      split at stepped
      · rename_i completion rest found
        cases stepped
        have withdraws : Withdraws true (fun _ => false) .timeout s { s with
            completing := s.completing.set thread rest
            completions := s.completions ++ [completion] } := by
          apply Withdraws.none
          case results => exact results_complete found
          all_goals intros; rfl
        exact .withdraws (.inr rfl) withdraws ⟨MultipleTimer.Shrinks.refl _, fun _ _ _ _ _ running => running⟩
      · cases stepped
  | timerExpires timerId =>
      obtain ⟨timer, expired, rfl⟩ := Option.map_eq_some_iff.mp stepped
      have withdraws : Withdraws true (fun _ => false) .timeout s { s with timer := timer } :=
        Withdraws.none (s := s) (t := { s with timer := timer }) (fun _ => rfl) (List.Perm.refl _) rfl rfl rfl
          fun _ _ => rfl
      refine .withdraws (.inr rfl) withdraws ⟨MultipleTimer.shrinks_expire expired, ?_⟩
      intro _ _ _ other _ running
      exact (MultipleTimer.armed_expire expired).mpr running
  | timerHandler timerId =>
      obtain ⟨side, withdraws, timers, _⟩ := timerHandler_withdraws inv stepped
      exact .withdraws (.inr rfl) withdraws timers
  | cancelPendingClientEndpoints clientId =>
      cases stepped
      exact cancelPending_move inv clientId false
  | cancelPendingServerEndpoints clientId =>
      cases stepped
      exact cancelPending_move inv clientId true

theorem step_queued {e : Event} (inv : Queued s) (stepped : s.step e = some t) : Queued t := by
  cases step_move inv stepped with
  | waits clientId side timed empty => exact inv.waitForOther empty
  | pairs clientId side waiting => exact inv.pairWith waiting
  | withdraws _ withdraws timers => exact inv.withdraw withdraws timers

theorem run_queued {es : List Event} (ran : machine.run {} es = some s) : Queued s :=
  Machine.run_invariant (P := Queued) step_queued queued_init ran

end MemPipeEnv

end CommonRpc
