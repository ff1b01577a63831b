/-
Module: CommonRpc.Proofs.PeriodicTimer
Purpose: Runs of `periodic_timer` under every interleaving. The timer has a wait exactly while it is active, so a
  step of a handler is a step of the one wait there is (`Move`). Stop callbacks wait until the run ends and are
  posted when it does; the log shows that the periodic callback of the run was not invoked after that. The number
  of invocations follows the counter, which is compared after the callback has run: a run that is started with no
  periods at all has one.
Trusted boundary: none
-/
import CommonRpc.Core.PeriodicTimer
import CommonRpc.Lib.Table
import Mathlib.Data.List.Nodup

namespace CommonRpc.PeriodicTimer

open Lib

variable {w : Nat} {s t : PeriodicTimer w}

/-! ### What a step does -/

/-- The timer has one wait while it is active, and none otherwise; the wait is of the latest run. -/
inductive Shape (s : PeriodicTimer w) : Prop where
  | idle (inactive : s.isActive = false) (none : s.waits = []) (noCallbacks : s.stopCallbacks = [])
  | busy (wait : TimerWait) (active : s.isActive = true) (one : s.waits = [wait])
      (latest : wait.run + 1 = s.runs.length)

/-- The steps of a timer with at most one wait. -/
inductive Move (s : PeriodicTimer w) : Event w → PeriodicTimer w → Prop where
  | started (total : BitVec w) (inactive : s.isActive = false) (none : s.waits = []) :
      Move s (.start total)
        { s with
          isActive := true, isStopped := false, currentPeriodsCount := 0, totalPeriodsCount := total
          runs := s.runs ++ [total], waits := [{ run := s.runs.length }] }
  | refused (total : BitVec w) (active : s.isActive = true) : Move s (.start total) s
  /-- The callback is posted at once. -/
  | notRunning (hasCallback : Bool) (inactive : s.isActive = false) :
      Move s (.stopAsync hasCallback)
        { s with
          handed := s.handed ++ s.newCallback hasCallback
          log := s.log ++ (s.newCallback hasCallback).map .posted }
  /-- The callback is kept; the wait is cancelled if it has not ended. -/
  | stopped (hasCallback : Bool) (wait wait' : TimerWait) (active : s.isActive = true) (one : s.waits = [wait])
      (same : wait'.run = wait.run) (calling : wait'.stage = .calling ↔ wait.stage = .calling) :
      Move s (.stopAsync hasCallback)
        { s with
          handed := s.handed ++ s.newCallback hasCallback
          stopCallbacks := s.stopCallbacks ++ s.newCallback hasCallback
          isStopped := true, waits := [wait'] }
  | expired (run : Nat) (one : s.waits = [⟨run, .waiting⟩]) :
      Move s (.expire 0) { s with waits := [⟨run, .queued false⟩] }
  | aborted (run : Nat) (one : s.waits = [⟨run, .queued true⟩]) :
      Move s (.handle 0) { s with waits := [] }.deactivate
  | invoked (run : Nat) (one : s.waits = [⟨run, .queued false⟩]) :
      Move s (.handle 0) { s with waits := [⟨run, .calling⟩], log := s.log ++ [.invoked run] }
  | continued (run : Nat) (one : s.waits = [⟨run, .calling⟩]) (goesOn : s.isStopped = false)
      (fewer : s.currentPeriodsCount + 1 < s.totalPeriodsCount) :
      Move s (.callbackReturns 0 (some .continue))
        { s with waits := [{ run }], currentPeriodsCount := s.currentPeriodsCount + 1 }
  | finished (run : Nat) (ret : Option CallbackRet) (one : s.waits = [⟨run, .calling⟩])
      (last : ret ≠ some .continue ∨ s.isStopped = true ∨
        ¬ s.currentPeriodsCount + 1 < s.totalPeriodsCount) :
      Move s (.callbackReturns 0 ret)
        { s with waits := [], currentPeriodsCount := s.currentPeriodsCount + 1 }.deactivate

/-- A wait is the only one. -/
theorem Shape.only (shape : Shape s) {wait : TimerWait} {index : Nat} (found : s.waits[index]? = some wait) :
    index = 0 ∧ s.waits = [wait] := by
  cases shape with
  | idle _ none =>
      rw [none] at found
      cases found
  | busy wait' _ one =>
      rw [one] at found
      cases index with
      | zero => exact ⟨rfl, Option.some.inj found ▸ one⟩
      | succ index => cases found

theorem start_move (shape : Shape s) {total : BitVec w} (stepped : s.step (.start total) = some t) :
    Move s (.start total) t := by
  rw [step, start] at stepped
  cases shape with
  | idle inactive none =>
      rw [inactive] at stepped
      simp only [Bool.false_eq_true, if_false, startPeriod, cancel, none, List.map_nil, List.nil_append,
        Option.some.injEq] at stepped
      subst stepped
      exact .started total inactive none
  | busy wait active =>
      rw [if_pos active] at stepped
      obtain rfl := Option.some.inj stepped
      exact .refused total active

theorem stopAsync_move (shape : Shape s) (hasCallback : Bool) :
    Move s (.stopAsync hasCallback) (s.stopAsync hasCallback) := by
  rw [stopAsync]
  dsimp only
  cases shape with
  | idle inactive =>
      rw [if_neg (Bool.not_eq_true _ ▸ inactive)]
      exact .notRunning hasCallback inactive
  | busy wait active one =>
      rw [if_pos active]
      split
      next already =>
        have unchanged := Move.stopped hasCallback wait wait active one rfl Iff.rfl
        rw [← one, ← already] at unchanged
        exact unchanged
      next =>
        simp only [cancel, one, List.map_cons, List.map_nil]
        apply Move.stopped hasCallback wait _ active one
        · split <;> rfl
        · split
          next waiting => simp [waiting]
          next => rfl

theorem expire_move (shape : Shape s) {index : Nat} (stepped : s.step (.expire index) = some t) :
    Move s (.expire index) t := by
  rw [step] at stepped
  split at stepped
  next run found =>
    obtain ⟨rfl, one⟩ := shape.only found
    simp only [one, List.set_cons_zero, Option.some.injEq] at stepped
    subst stepped
    exact .expired run one
  all_goals cases stepped

theorem handle_move (shape : Shape s) {index : Nat} (stepped : s.step (.handle index) = some t) :
    Move s (.handle index) t := by
  rw [step, handle] at stepped
  split at stepped
  next run found =>
    obtain ⟨rfl, one⟩ := shape.only found
    simp only [one, List.eraseIdx_cons_zero, Option.some.injEq] at stepped
    subst stepped
    exact .aborted run one
  next run found =>
    obtain ⟨rfl, one⟩ := shape.only found
    simp only [one, List.set_cons_zero, Option.some.injEq] at stepped
    subst stepped
    exact .invoked run one
  all_goals cases stepped

theorem callbackReturns_move (shape : Shape s) {index : Nat} {ret : Option CallbackRet}
    (stepped : s.step (.callbackReturns index ret) = some t) : Move s (.callbackReturns index ret) t := by
  rw [step, callbackReturns] at stepped
  split at stepped
  next run found =>
    obtain ⟨rfl, one⟩ := shape.only found
    simp only [one, List.eraseIdx_cons_zero] at stepped
    split at stepped
    next again =>
      obtain ⟨rfl, goesOn, fewer⟩ := again
      simp only [startPeriod, cancel, List.map_nil, List.nil_append, Option.some.injEq] at stepped
      subst stepped
      exact .continued run one goesOn fewer
    next ends =>
      obtain rfl := Option.some.inj stepped
      refine .finished run ret one ?_
      rw [not_and_or, not_and_or, Bool.not_eq_false] at ends
      exact ends
  all_goals cases stepped

theorem step_move (shape : Shape s) {event : Event w} (stepped : (machine w).step s event = some t) :
    Move s event t := by
  cases event with
  | start total => exact start_move shape stepped
  | stopAsync hasCallback =>
      obtain rfl := Option.some.inj stepped
      exact stopAsync_move shape hasCallback
  | expire index => exact expire_move shape stepped
  | handle index => exact handle_move shape stepped
  | callbackReturns index ret => exact callbackReturns_move shape stepped

/-! ### Stop callbacks -/

/-- A stop callback that was posted is followed by invocations of later runs only. -/
def Before : TimerAction → TimerAction → Prop
  | .posted callback, .invoked run => callback.runs ≤ run
  | .posted _, .posted _ | .invoked _, _ => True

structure Consistent (s : PeriodicTimer w) : Prop where
  shape : Shape s
  /-- Every stop callback was posted or waits for the end of the run. -/
  accounted : (s.posted ++ s.stopCallbacks).Perm s.handed
  distinct : s.handed.Nodup
  numbered : ∀ callback ∈ s.handed, callback.number < s.handed.length
  waiting : ∀ callback ∈ s.stopCallbacks, callback.runs = s.runs.length
  /-- Nothing is posted while a run goes on. -/
  earlier : ∀ callback ∈ s.posted, callback.runs + s.isActive.toNat ≤ s.runs.length
  ordered : s.log.Pairwise Before

theorem consistent_init : Consistent ({} : PeriodicTimer w) where
  shape := .idle rfl rfl rfl
  accounted := .nil
  distinct := .nil
  numbered := by simp
  waiting := by simp
  earlier := by simp [posted]
  ordered := .nil

theorem posted_append_posted (s : PeriodicTimer w) (callbacks : List StopCallback) :
    { s with log := s.log ++ callbacks.map TimerAction.posted }.posted = s.posted ++ callbacks := by
  simp [posted, List.filterMap_append, List.filterMap_map]

theorem posted_append_invoked (s : PeriodicTimer w) (run : Nat) :
    { s with log := s.log ++ [TimerAction.invoked run] }.posted = s.posted := by
  simp [posted, List.filterMap_append]

/-- Nothing has to come before a post. -/
theorem ordered_append_posted {log : List TimerAction} (ordered : log.Pairwise Before)
    (callbacks : List StopCallback) : (log ++ callbacks.map TimerAction.posted).Pairwise Before := by
  have anything (action : TimerAction) (callback : StopCallback) : Before action (.posted callback) := by
    cases action with
    | _ => trivial
  refine List.pairwise_append.mpr ⟨ordered, ?_, ?_⟩
  · rw [List.pairwise_map]
    exact List.pairwise_of_forall fun _ callback => anything _ callback
  · intro action _ action' isPosted
    obtain ⟨callback, -, rfl⟩ := List.mem_map.mp isPosted
    exact anything action callback

theorem runs_of_newCallback {hasCallback : Bool} {callback : StopCallback}
    (new : callback ∈ s.newCallback hasCallback) : callback.runs = s.runs.length := by
  rw [newCallback] at new
  split at new
  · rw [List.mem_singleton.mp new]
  · cases new

namespace Consistent

theorem idle_of_inactive (inv : Consistent s) (inactive : s.isActive = false) :
    s.waits = [] ∧ s.stopCallbacks = [] := by
  cases inv.shape with
  | idle _ none noCallbacks => exact ⟨none, noCallbacks⟩
  | busy _ active => exact absurd (inactive.symm.trans active) Bool.false_ne_true

/-- A wait is there while the timer is active only, and belongs to the latest run. -/
theorem busy_of_wait (inv : Consistent s) {wait : TimerWait} (one : s.waits = [wait]) :
    s.isActive = true ∧ wait.run + 1 = s.runs.length := by
  cases inv.shape with
  | idle _ none => exact absurd (none.symm.trans one) (List.cons_ne_nil _ _).symm
  | busy other active one' latest =>
      obtain rfl : other = wait := List.singleton_inj.mp (one'.symm.trans one)
      exact ⟨active, latest⟩

/-- The new callback differs from the ones before. -/
theorem hand (inv : Consistent s) (hasCallback : Bool) :
    (s.handed ++ s.newCallback hasCallback).Nodup ∧
    ∀ callback ∈ s.handed ++ s.newCallback hasCallback,
      callback.number < (s.handed ++ s.newCallback hasCallback).length := by
  rw [newCallback]
  split
  · refine ⟨?_, ?_⟩
    · rw [List.nodup_append]
      refine ⟨inv.distinct, List.pairwise_singleton _ _, ?_⟩
      rintro callback old _ new rfl
      have lower := inv.numbered callback old
      rw [List.mem_singleton.mp new] at lower
      exact Nat.lt_irrefl _ lower
    · intro callback member
      rw [List.length_append, List.length_singleton]
      rcases List.mem_append.mp member with old | new
      · exact Nat.lt_succ_of_lt (inv.numbered callback old)
      · rw [List.mem_singleton.mp new]
        exact Nat.lt_succ_self _
  · rw [List.append_nil]
    exact ⟨inv.distinct, inv.numbered⟩

/-- The wait goes on to another stage. -/
theorem setWait (inv : Consistent s) {wait : TimerWait} (one : s.waits = [wait]) (wait' : TimerWait)
    (same : wait'.run = wait.run) (count : BitVec w) :
    Consistent { s with waits := [wait'], currentPeriodsCount := count } := by
  obtain ⟨active, latest⟩ := inv.busy_of_wait one
  exact { inv with shape := .busy wait' active rfl (same ▸ latest) }

/-- The end of a run. -/
theorem deactivate (inv : Consistent s) {wait : TimerWait} (one : s.waits = [wait]) (count : BitVec w) :
    Consistent { s with waits := [], currentPeriodsCount := count }.deactivate := by
  obtain ⟨active, -⟩ := inv.busy_of_wait one
  have posted : { s with waits := [], currentPeriodsCount := count }.deactivate.posted =
      s.posted ++ s.stopCallbacks := posted_append_posted s s.stopCallbacks
  refine { inv with shape := .idle rfl rfl rfl, accounted := ?_, waiting := ?_, earlier := ?_, ordered := ?_ }
  · rw [posted]
    exact (List.append_nil _).symm ▸ inv.accounted
  · intro callback member
    cases member
  · intro callback member
    rw [posted] at member
    rcases List.mem_append.mp member with old | new
    · have before := inv.earlier callback old
      exact Nat.le_trans (Nat.le_add_right _ _) before
    · exact Nat.le_of_eq (inv.waiting callback new)
  · exact ordered_append_posted inv.ordered s.stopCallbacks

theorem move (inv : Consistent s) {event : Event w} (moved : Move s event t) : Consistent t := by
  cases moved with
  | started total inactive none =>
      obtain ⟨-, noCallbacks⟩ := inv.idle_of_inactive inactive
      refine { inv with shape := ?_, waiting := ?_, earlier := ?_ }
      · exact .busy { run := s.runs.length } rfl rfl (by simp)
      · intro callback member
        rw [noCallbacks] at member
        cases member
      · intro callback member
        have before := inv.earlier callback member
        rw [inactive] at before
        rw [List.length_append]
        exact Nat.succ_le_succ before
  | refused => exact inv
  | notRunning hasCallback inactive =>
      obtain ⟨none, noCallbacks⟩ := inv.idle_of_inactive inactive
      obtain ⟨distinct, numbered⟩ := inv.hand hasCallback
      have posted : { s with
          handed := s.handed ++ s.newCallback hasCallback
          log := s.log ++ (s.newCallback hasCallback).map TimerAction.posted }.posted =
            s.posted ++ s.newCallback hasCallback := posted_append_posted s _
      refine { inv with
        shape := .idle inactive none noCallbacks, distinct, numbered, accounted := ?_, earlier := ?_,
        ordered := ?_ }
      · have before := inv.accounted
        rw [noCallbacks, List.append_nil] at before
        rw [posted, noCallbacks, List.append_nil]
        exact before.append_right _
      · intro callback member
        rw [posted] at member
        rcases List.mem_append.mp member with old | new
        · exact inv.earlier callback old
        · rw [runs_of_newCallback new, inactive]
          exact Nat.le_refl _
      · exact ordered_append_posted inv.ordered _
  | stopped hasCallback wait wait' active one same =>
      obtain ⟨distinct, numbered⟩ := inv.hand hasCallback
      obtain ⟨-, latest⟩ := inv.busy_of_wait one
      refine { inv with
        shape := .busy wait' active rfl (same ▸ latest), distinct, numbered, accounted := ?_, waiting := ?_ }
      · have before := inv.accounted.append_right (s.newCallback hasCallback)
        rw [List.append_assoc] at before
        exact before
      · intro callback member
        rcases List.mem_append.mp member with old | new
        · exact inv.waiting callback old
        · exact (runs_of_newCallback new :)
  | expired run one => exact inv.setWait one ⟨run, .queued false⟩ rfl s.currentPeriodsCount
  | aborted run one => exact inv.deactivate one s.currentPeriodsCount
  | invoked run one =>
      obtain ⟨active, latest⟩ := inv.busy_of_wait one
      have posted : { s with
          waits := [⟨run, .calling⟩], log := s.log ++ [TimerAction.invoked run] }.posted = s.posted :=
        posted_append_invoked s run
      refine { inv with shape := .busy _ active rfl latest, accounted := ?_, earlier := ?_, ordered := ?_ }
      · rw [posted]
        exact inv.accounted
      · rw [posted]
        exact inv.earlier
      · refine List.pairwise_append.mpr ⟨inv.ordered, List.pairwise_singleton _ _, ?_⟩
        intro action member action' isInvoked
        rw [List.mem_singleton.mp isInvoked]
        cases action with
        | invoked => trivial
        | posted callback =>
            have before := inv.earlier callback (List.mem_filterMap.mpr ⟨_, member, rfl⟩)
            rw [active, ← latest] at before
            exact Nat.le_of_succ_le_succ before
  | continued run one => exact inv.setWait one { run } rfl _
  | finished run ret one => exact inv.deactivate one _

end Consistent

theorem consistent_of_run {events : List (Event w)} (ran : (machine w).run {} events = some s) : Consistent s :=
  Machine.run_invariant (P := Consistent) (fun inv stepped => inv.move (step_move inv.shape stepped))
    consistent_init ran

/-- A callback that is not empty is handed over by each call of `stop_async` that has one. -/
theorem handed_length {events : List (Event w)} (ran : (machine w).run {} events = some s) :
    s.handed.length = events.count (.stopAsync true) := by
  refine Machine.run_induction (P := fun events s => s.handed.length = events.count (.stopAsync true)) rfl ?_ ran
  intro events a event b reached counted stepped
  rw [List.count_append, ← counted]
  cases step_move (consistent_of_run reached).shape stepped with
  | notRunning hasCallback | stopped hasCallback =>
      rw [List.length_append, newCallback]
      cases hasCallback <;> rfl
  | _ => rfl

/-- For every interleaving: a wait or handler is outstanding exactly while the timer is active, and then one;
    `start` succeeds exactly while the timer is inactive. Every stop callback that is not empty is posted at most
    once, and exactly once when the timer is inactive and no handler is left. After a stop callback was posted, the
    periodic callback is invoked only by runs that were started after the stop callback was handed over. -/
theorem stop_callbacks_posted_once {events : List (Event w)} (ran : (machine w).run {} events = some s) :
    s.waits.length = s.isActive.toNat ∧
    (∀ total, (∃ t, s.start total = .ok t) ↔ s.isActive = false) ∧
    (s.handed.Nodup ∧ s.handed.length = events.count (.stopAsync true)) ∧
    (∀ callback, s.posted.count callback ≤ 1) ∧
    (s.isActive = false → s.waits = [] → ∀ callback ∈ s.handed, s.posted.count callback = 1) ∧
    ∀ before callback after, s.log = before ++ .posted callback :: after →
      ∀ run, .invoked run ∈ after → callback.runs ≤ run := by
  have inv := consistent_of_run ran
  refine ⟨?_, ?_, ⟨inv.distinct, handed_length ran⟩, ?_, ?_, ?_⟩
  · cases inv.shape with
    | idle inactive none => rw [inactive, none]; rfl
    | busy wait active one => rw [active, one]; rfl
  · intro total
    rw [start]
    cases s.isActive <;> simp
  · intro callback
    have once := List.nodup_iff_count_le_one.mp inv.distinct callback
    rw [← inv.accounted.count_eq, List.count_append] at once
    exact Nat.le_trans (Nat.le_add_right _ _) once
  · intro inactive _ callback member
    have accounted := inv.accounted
    rw [(inv.idle_of_inactive inactive).2, List.append_nil] at accounted
    rw [accounted.count_eq]
    exact List.count_eq_one_of_mem inv.distinct member
  · intro before callback after split run member
    have ordered := inv.ordered
    rw [split] at ordered
    exact (List.pairwise_cons.mp (List.pairwise_append.mp ordered).2.1).1 (.invoked run) member

/-- The timer is stopped while its handler is queued: the periodic callback still runs, and then the stop callback
    is posted. -/
theorem stop_callbacks_posted_once_late :
    ∃ s, (machine 64).run {}
        [.start 5, .expire 0, .stopAsync true, .handle 0, .callbackReturns 0 (some .continue)] = some s ∧
      s.posted.count { number := 0, runs := 1 } = 1 := by
  have ran : (machine 64).run {}
      [.start 5, .expire 0, .stopAsync true, .handle 0, .callbackReturns 0 (some .continue)] = some _ := rfl
  obtain ⟨-, -, -, -, once, -⟩ := stop_callbacks_posted_once ran
  exact ⟨_, ran, once rfl rfl _ (.head _)⟩

/-! ### The number of periods -/

theorem invocations_append_posted (s : PeriodicTimer w) (callbacks : List StopCallback) (run : Nat) :
    { s with log := s.log ++ callbacks.map TimerAction.posted }.invocations run = s.invocations run := by
  have none : (callbacks.map TimerAction.posted).count (.invoked run) = 0 := by
    rw [List.count_eq_zero]
    intro member
    obtain ⟨callback, -, same⟩ := List.mem_map.mp member
    cases same
  rw [invocations, List.count_append, none]
  rfl

theorem invocations_append_invoked (s : PeriodicTimer w) (run other : Nat) :
    { s with log := s.log ++ [TimerAction.invoked run] }.invocations other =
      s.invocations other + if run = other then 1 else 0 := by
  rw [invocations, List.count_append, List.count_singleton]
  by_cases same : run = other <;> simp [same, invocations]

theorem toNat_succ {count total : BitVec w} (below : count.toNat < total.toNat) :
    (count + 1).toNat = count.toNat + 1 := by
  have bound := total.isLt
  have one : 1 % 2 ^ w = 1 := Nat.mod_eq_of_lt (by omega)
  rw [BitVec.toNat_add, BitVec.ofNat_eq_ofNat, BitVec.toNat_ofNat, one]
  exact Nat.mod_eq_of_lt (by omega)

/-- The invocations of the runs so far; those of the latest one follow the counter. -/
structure Counted (s : PeriodicTimer w) : Prop where
  bounded : ∀ run total, s.runs[run]? = some total → s.invocations run ≤ max 1 total.toNat
  none : ∀ run, s.runs.length ≤ run → s.invocations run = 0
  current : ∀ wait, s.waits = [wait] →
    s.runs[wait.run]? = some s.totalPeriodsCount ∧
    s.currentPeriodsCount.toNat < max 1 s.totalPeriodsCount.toNat ∧
    s.invocations wait.run = s.currentPeriodsCount.toNat + if wait.stage = .calling then 1 else 0

theorem counted_init : Counted ({} : PeriodicTimer w) where
  bounded := by simp
  none := by simp [invocations]
  current := by simp

namespace Counted

/-- Posting stop callbacks and ending the run invokes nothing. -/
theorem deactivate (counted : Counted s) (count : BitVec w) :
    Counted { s with waits := [], currentPeriodsCount := count }.deactivate where
  bounded run total started := by
    have same := invocations_append_posted s s.stopCallbacks run
    exact Nat.le_trans (Nat.le_of_eq same) (counted.bounded run total started)
  none run later := (invocations_append_posted s s.stopCallbacks run).trans (counted.none run later)
  current wait one := by cases one

theorem move (inv : Consistent s) (counted : Counted s) {event : Event w} (moved : Move s event t) : Counted t := by
  cases moved with
  | started total inactive none =>
      have fresh := counted.none s.runs.length (Nat.le_refl _)
      refine ⟨?_, ?_, ?_⟩
      · intro run total' started
        rcases Table.push_cases started with old | ⟨rfl, -⟩
        · exact counted.bounded run total' old
        · exact Nat.le_trans (Nat.le_of_eq fresh) (Nat.zero_le _)
      · intro run later
        rw [List.length_append] at later
        exact counted.none run (by omega)
      · intro wait one
        obtain rfl := List.singleton_inj.mp one
        exact ⟨by simp, Nat.lt_of_lt_of_le Nat.zero_lt_one (Nat.le_max_left ..), fresh⟩
  | refused => exact counted
  | notRunning hasCallback inactive =>
      have same := invocations_append_posted s (s.newCallback hasCallback)
      refine ⟨?_, ?_, ?_⟩
      · intro run total started
        exact Nat.le_trans (Nat.le_of_eq (same run)) (counted.bounded run total started)
      · intro run later
        exact (same run).trans (counted.none run later)
      · intro wait one
        exact absurd ((inv.idle_of_inactive inactive).1.symm.trans one) (List.cons_ne_nil _ _).symm
  | stopped hasCallback wait wait' active one same calling =>
      refine { bounded := counted.bounded, none := counted.none, current := ?_ }
      intro other isOther
      obtain rfl := List.singleton_inj.mp isOther
      obtain ⟨started, below, count⟩ := counted.current wait one
      rw [same]
      exact ⟨started, below, by simp only [calling]; exact count⟩
  | expired run one =>
      refine { bounded := counted.bounded, none := counted.none, current := ?_ }
      intro wait isWait
      obtain rfl := List.singleton_inj.mp isWait
      exact counted.current ⟨run, .waiting⟩ one
  | aborted run one => exact counted.deactivate s.currentPeriodsCount
  | invoked run one =>
      obtain ⟨started, below, count⟩ := counted.current _ one
      have added := invocations_append_invoked s run
      obtain ⟨-, latest⟩ := inv.busy_of_wait one
      refine ⟨?_, ?_, ?_⟩
      · intro other total isStarted
        refine Nat.le_trans (Nat.le_of_eq (added other)) ?_
        by_cases same : run = other
        · subst same
          obtain rfl : s.totalPeriodsCount = total := Option.some.inj (started.symm.trans isStarted)
          rw [if_pos rfl]
          simp only [reduceCtorEq, if_false] at count
          omega
        · rw [if_neg same]
          exact counted.bounded other total isStarted
      · intro other later
        have apart : run ≠ other := by
          simp only at latest later
          omega
        refine (added other).trans ?_
        rw [if_neg apart]
        exact counted.none other later
      · intro wait isWait
        obtain rfl := List.singleton_inj.mp isWait
        refine ⟨started, below, (added run).trans ?_⟩
        simp only [reduceCtorEq, if_false] at count
        simp [count]
  | continued run one goesOn fewer =>
      obtain ⟨started, below, count⟩ := counted.current _ one
      refine { bounded := counted.bounded, none := counted.none, current := ?_ }
      intro wait isWait
      obtain rfl := List.singleton_inj.mp isWait
      have fewer' := BitVec.lt_def.mp fewer
      have below' : s.currentPeriodsCount.toNat < s.totalPeriodsCount.toNat := by omega
      have succ := toNat_succ below'
      refine ⟨started, by simp only; omega, ?_⟩
      simp only [if_true] at count
      simp only [reduceCtorEq, if_false, succ]
      exact count
  | finished run ret one => exact counted.deactivate _

end Counted

theorem counted_of_run {events : List (Event w)} (ran : (machine w).run {} events = some s) : Counted s := by
  refine Machine.run_induction (P := fun _ s => Counted s) counted_init ?_ ran
  intro events a event b reached counted stepped
  have inv := consistent_of_run reached
  exact counted.move inv (step_move inv.shape stepped)

/-- The event does not disturb a run: it stops nothing, and a callback that returns wants to go on. -/
def Event.isUndisturbed : Event w → Bool
  | .start _ | .expire _ | .handle _ => true
  | .stopAsync _ => false
  | .callbackReturns _ ret => ret = some .continue

def Event.isStart : Event w → Bool
  | .start _ => true
  | .stopAsync _ | .expire _ | .handle _ | .callbackReturns _ _ => false

/-- The run has ended. -/
def Over (s : PeriodicTimer w) (run : Nat) : Prop := s.isActive = false ∨ run + 1 < s.runs.length

/-- How many steps a wait has taken. -/
def stageIndex : WaitStage → Nat
  | .waiting => 0
  | .queued _ => 1
  | .calling => 2

/-- Where a run is that nothing has disturbed: three steps for each period, until all periods are over. -/
inductive Undisturbed (run : Nat) (total : BitVec w) (steps : Nat) (s : PeriodicTimer w) : Prop where
  | going (wait : TimerWait) (one : s.waits = [wait]) (own : wait.run = run) (notStopped : s.isStopped = false)
      (notAborted : wait.stage ≠ .queued true) (below : s.currentPeriodsCount.toNat < total.toNat)
      (passed : steps = 3 * s.currentPeriodsCount.toNat + stageIndex wait.stage)
  | complete (started : run < s.runs.length) (ended : Over s run) (all : s.invocations run = total.toNat)

/-- A run that has ended stays so, and its callback is not invoked again. -/
theorem Over.move (inv : Consistent s) {run : Nat} (started : run < s.runs.length) (ended : Over s run)
    {event : Event w} (moved : Move s event t) :
    run < t.runs.length ∧ Over t run ∧ t.invocations run = s.invocations run := by
  cases moved with
  | started total =>
      rw [Over, List.length_append]
      exact ⟨Nat.lt_succ_of_lt started, .inr (Nat.succ_lt_succ started), rfl⟩
  | refused => exact ⟨started, ended, rfl⟩
  | notRunning hasCallback => exact ⟨started, ended, invocations_append_posted s _ run⟩
  | stopped => exact ⟨started, ended, rfl⟩
  | expired => exact ⟨started, ended, rfl⟩
  | aborted => exact ⟨started, .inl rfl, invocations_append_posted s _ run⟩
  | invoked other one =>
      obtain ⟨active, latest⟩ := inv.busy_of_wait one
      have apart : other ≠ run := by
        rintro rfl
        rcases ended with inactive | later
        · exact absurd (inactive.symm.trans active) Bool.false_ne_true
        · exact absurd latest (Nat.ne_of_lt later)
      have added := invocations_append_invoked s other run
      rw [if_neg apart] at added
      exact ⟨started, ended, added⟩
  | continued => exact ⟨started, ended, rfl⟩
  | finished => exact ⟨started, .inl rfl, invocations_append_posted s _ run⟩

theorem Undisturbed.move (inv : Consistent s) (counted : Counted s) {run steps : Nat} {total : BitVec w}
    (started : s.runs[run]? = some total) (state : Undisturbed run total steps s)
    {event : Event w} (undisturbed : event.isUndisturbed = true) (moved : Move s event t) :
    Undisturbed run total (if event.isStart then steps else steps + 1) t := by
  cases state with
  | complete inside ended all =>
      obtain ⟨inside', ended', same⟩ := ended.move inv inside moved
      exact .complete inside' ended' (same.trans all)
  | going wait one own notStopped notAborted below passed =>
      subst own
      obtain ⟨active, latest⟩ := inv.busy_of_wait one
      obtain ⟨isTotal, -, count⟩ := counted.current wait one
      rw [started, Option.some.injEq] at isTotal
      -- the wait of the step is the wait of the run
      have isWait {other : TimerWait} (one' : s.waits = [other]) : wait = other :=
        List.singleton_inj.mp (one.symm.trans one')
      cases moved with
      | started _ inactive => exact absurd (inactive.symm.trans active) Bool.false_ne_true
      | refused => exact .going wait one rfl notStopped notAborted below passed
      | notRunning | stopped => cases undisturbed
      | expired _ one' =>
          obtain rfl := isWait one'
          exact .going _ rfl rfl notStopped (by simp) below (congrArg (· + 1) passed)
      | aborted _ one' =>
          obtain rfl := isWait one'
          exact absurd rfl notAborted
      | invoked _ one' =>
          obtain rfl := isWait one'
          exact .going _ rfl rfl notStopped (by simp) below (congrArg (· + 1) passed)
      | continued _ one' _ fewer =>
          obtain rfl := isWait one'
          rw [← isTotal, BitVec.lt_def] at fewer
          refine .going _ rfl rfl notStopped (by simp) fewer ?_
          rw [toNat_succ below]
          simp only [stageIndex] at passed ⊢
          simp only [Event.isStart, Bool.false_eq_true, if_false]
          omega
      | finished _ ret one' last =>
          obtain rfl := isWait one'
          have wantsOn : ret = some .continue := of_decide_eq_true undisturbed
          have notFewer : ¬ s.currentPeriodsCount + 1 < s.totalPeriodsCount := by
            rcases last with returned | stopped | notFewer
            · exact absurd wantsOn returned
            · exact absurd (notStopped.symm.trans stopped) Bool.false_ne_true
            · exact notFewer
          refine .complete (Table.lt_of_entry started) (.inl rfl) ((invocations_append_posted s _ _).trans ?_)
          rw [← isTotal, BitVec.lt_def, toNat_succ below] at notFewer
          simp only [if_true] at count ⊢
          omega

/-- A run that nothing has disturbed and that has not ended can go on. -/
theorem exists_step {wait : TimerWait} (one : s.waits = [wait]) (notAborted : wait.stage ≠ .queued true) :
    ∃ event : Event w, event.isUndisturbed = true ∧ event.isStart = false ∧
      ((machine w).step s event).isSome = true := by
  obtain ⟨run, stage⟩ := wait
  cases stage with
  | waiting => exact ⟨.expire 0, rfl, rfl, by simp [machine, step, one]⟩
  | queued aborted =>
      cases aborted with
      | true => exact absurd rfl notAborted
      | false => exact ⟨.handle 0, rfl, rfl, by simp [machine, step, handle, one]⟩
  | calling =>
      refine ⟨.callbackReturns 0 (some .continue), rfl, rfl, ?_⟩
      simp only [machine, step, callbackReturns, one, List.getElem?_cons_zero]
      split <;> rfl

/-- The state after a successful start. -/
theorem undisturbed_start {total : BitVec w} (inv : Consistent s) (positive : 0 < total.toNat)
    (started : s.start total = .ok t) :
    Undisturbed s.runs.length total 0 t ∧ t.runs[s.runs.length]? = some total := by
  have stepped : (machine w).step s (.start total) = some t := by
    simp only [machine, step, started]
  cases step_move inv.shape stepped with
  | started => exact ⟨.going { run := s.runs.length } rfl rfl rfl (by simp) positive rfl, by simp⟩
  | refused _ active =>
      rw [start, if_pos active] at started
      cases started

/-- What a run that nothing disturbs has done after any number of steps. -/
theorem undisturbed_of_run {total : BitVec w} (positive : 0 < total.toNat) {events later : List (Event w)}
    {s₀ s₁ : PeriodicTimer w} (ran : (machine w).run {} events = some s₀) (started : s₀.start total = .ok s₁)
    (undisturbed : ∀ event ∈ later, event.isUndisturbed = true) (ran' : (machine w).run s₁ later = some s) :
    Undisturbed s₀.runs.length total (later.countP fun event => !event.isStart) s ∧
    s.runs[s₀.runs.length]? = some total := by
  have first : (machine w).run {} (events ++ [.start total]) = some s₁ := by
    refine Machine.run_append_eq_some.mpr ⟨s₀, ran, ?_⟩
    rw [Machine.run_cons]
    simp only [machine, step, started]
    rfl
  revert undisturbed
  refine Machine.run_induction (P := fun later s => (∀ event ∈ later, event.isUndisturbed = true) →
    Undisturbed s₀.runs.length total (later.countP fun event => !event.isStart) s ∧
      s.runs[s₀.runs.length]? = some total) ?_ ?_ ran'
  · intro _
    exact undisturbed_start (consistent_of_run ran) positive started
  · intro later a event b reached ih stepped undisturbed
    obtain ⟨before, isTotal⟩ := ih fun event member => undisturbed event (List.mem_append_left _ member)
    have reached' : (machine w).run {} ((events ++ [.start total]) ++ later) = some a :=
      Machine.run_append_eq_some.mpr ⟨s₁, first, reached⟩
    have inv := consistent_of_run reached'
    have step := step_move inv.shape stepped
    have after := before.move inv (counted_of_run reached') isTotal
      (undisturbed event (List.mem_append_right _ (.head _))) step
    refine ⟨?_, ?_⟩
    · rw [List.countP_append, List.countP_singleton]
      cases isStart : event.isStart <;> simpa [isStart] using after
    · cases step with
      | started => exact Table.push_old isTotal
      | _ => exact isTotal

/-- The callback of a run that is started with `n` periods is invoked at most `n` times, and exactly `n` times if
    it always wants to go on and the timer is not stopped, for every `n` except 0: a run that is not disturbed
    either has ended after `n` invocations, or has taken less than `3 n` steps and can take another one. -/
theorem periods_exact_iff (n : BitVec w) :
    ((∀ events s run, (machine w).run {} events = some s → s.runs[run]? = some n →
        s.invocations run ≤ n.toNat) ∧
      ∀ events s₀ s₁ later s, (machine w).run {} events = some s₀ → s₀.start n = .ok s₁ →
        (∀ event ∈ later, event.isUndisturbed = true) → (machine w).run s₁ later = some s →
        Over s s₀.runs.length ∧ s.invocations s₀.runs.length = n.toNat ∨
        later.countP (fun event => !event.isStart) < 3 * n.toNat ∧
          ∃ event : Event w, event.isUndisturbed = true ∧ event.isStart = false ∧
            ((machine w).step s event).isSome = true) ↔ n ≠ 0 := by
  constructor
  · rintro ⟨atMost, -⟩ rfl
    have once := atMost [.start 0, .expire 0, .handle 0] _ 0 rfl rfl
    simp [invocations] at once
  · intro nonzero
    have positive : 0 < n.toNat := Nat.pos_of_ne_zero fun zero => nonzero (BitVec.eq_of_toNat_eq zero)
    refine ⟨?_, ?_⟩
    · intro events s run ran started
      have bounded := (counted_of_run ran).bounded run n started
      rw [Nat.max_eq_right positive] at bounded
      exact bounded
    · intro events s₀ s₁ later s ran started undisturbed ran'
      obtain ⟨state, -⟩ := undisturbed_of_run positive ran started undisturbed ran'
      cases state with
      | complete _ ended all => exact .inl ⟨ended, all⟩
      | going wait one _ _ notAborted below passed =>
          refine .inr ⟨?_, exists_step one notAborted⟩
          have last : stageIndex wait.stage ≤ 2 := by
            cases wait.stage with
            | _ => simp [stageIndex]
          omega

/-- A run that is started with no periods at all invokes its callback. -/
theorem zero_periods_invoked :
    ¬ ∀ (n : BitVec 64) events s run, (machine 64).run {} events = some s → s.runs[run]? = some n →
      s.invocations run ≤ n.toNat := by
  intro atMost
  have once := atMost 0 [.start 0, .expire 0, .handle 0] _ 0 rfl rfl
  exact absurd once (by decide)

end CommonRpc.PeriodicTimer
