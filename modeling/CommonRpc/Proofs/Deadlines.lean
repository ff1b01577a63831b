/-
Module: CommonRpc.Proofs.Deadlines
Purpose: Which timeouts the three deadlines can cope with. The guard in `event::wait_for` saves the addition and
  itself overflows for timeouts that are more nanoseconds than a count holds; the other two have no guard. Where
  nothing overflows, they are the deadlines of the models with unbounded times.
Trusted boundary: none
-/
import CommonRpc.Core.Deadlines
import CommonRpc.Core.Connection
import CommonRpc.Core.MemBuffer

namespace CommonRpc.Deadlines

open Lib

/-- What is meant: the end of the timeout, or the last point of time. -/
def deadline (now timeout : Int) : Int := min (now + timeout * nanosecondsPerMillisecond) timePointMax

theorem deadline_mono (now : Int) {shorter longer : Int} (le : shorter ≤ longer) :
    deadline now shorter ≤ deadline now longer :=
  Chrono.saturatedAdd_mono now (by decide) le

section Sites

variable {now timeout : Int} (nowNonneg : 0 ≤ now) (timeoutNonneg : 0 ≤ timeout)
include nowNonneg timeoutNonneg

theorem waitForDeadline_eq (nowInRange : now ≤ timePointMax) :
    waitForDeadline now timeout =
      if timeout * nanosecondsPerMillisecond ≤ timePointMax then some (deadline now timeout) else none :=
  Chrono.guardedAdd_eq nowNonneg nowInRange (Int.mul_nonneg timeoutNonneg (by decide))

theorem addTo_eq_deadline :
    Chrono.addTo countWidth nanosecondsPerMillisecond now timeout =
      if now + timeout * nanosecondsPerMillisecond ≤ timePointMax then some (deadline now timeout) else none :=
  Chrono.addTo_eq nowNonneg (Int.mul_nonneg timeoutNonneg (by decide))

theorem isConnectionNotResponding_eq (later : Int) :
    isConnectionNotResponding timeout (some now) later =
      if now + timeout * nanosecondsPerMillisecond ≤ timePointMax then some (decide (later > deadline now timeout))
      else none := by
  rw [isConnectionNotResponding, addTo_eq_deadline nowNonneg timeoutNonneg]
  split <;> rfl

end Sites

/-- For every timeout and every current time: the deadline of `event::wait_for` is computed without overflow, and is
    the intended one, exactly if the timeout in nanoseconds is a count; those of `mem_buffer::write_async` and
    `connection_watcher` exactly if the end of the timeout is a point of time. Where a timeout can be computed, a
    shorter one can be as well and does not end later. -/
theorem deadlines_exact (now timeout : Int) (nowNonneg : 0 ≤ now) (nowInRange : now ≤ timePointMax)
    (timeoutNonneg : 0 ≤ timeout) (_timeoutInRange : timeout ≤ millisecondsMax) :
    (waitForDeadline now timeout =
      if timeout * nanosecondsPerMillisecond ≤ timePointMax then some (deadline now timeout) else none) ∧
    (writeTimeoutPoint now (some timeout) =
      if now + timeout * nanosecondsPerMillisecond ≤ timePointMax then some (deadline now timeout) else none) ∧
    (∀ later, isConnectionNotResponding timeout (some now) later =
      if now + timeout * nanosecondsPerMillisecond ≤ timePointMax then some (decide (later > deadline now timeout))
      else none) ∧
    ∀ shorter, 0 ≤ shorter → shorter ≤ timeout →
      (∀ point, waitForDeadline now timeout = some point →
        ∃ earlier, waitForDeadline now shorter = some earlier ∧ earlier ≤ point) ∧
      (∀ point, writeTimeoutPoint now (some timeout) = some point →
        ∃ earlier, writeTimeoutPoint now (some shorter) = some earlier ∧ earlier ≤ point) ∧
      ∀ later, isConnectionNotResponding timeout (some now) later = some true →
        isConnectionNotResponding shorter (some now) later = some true := by
  refine ⟨waitForDeadline_eq nowNonneg timeoutNonneg nowInRange, addTo_eq_deadline nowNonneg timeoutNonneg,
    isConnectionNotResponding_eq nowNonneg timeoutNonneg, ?_⟩
  intro shorter shorterNonneg le
  have ticks : shorter * nanosecondsPerMillisecond ≤ timeout * nanosecondsPerMillisecond :=
    Int.mul_le_mul_of_nonneg_right le (by decide)
  have mono := deadline_mono now le
  refine ⟨?_, ?_, ?_⟩
  · intro point computed
    rw [waitForDeadline_eq nowNonneg timeoutNonneg nowInRange] at computed
    rw [waitForDeadline_eq nowNonneg shorterNonneg nowInRange]
    split at computed
    next inRange =>
      rw [if_pos (Int.le_trans ticks inRange), ← Option.some.inj computed]
      exact ⟨_, rfl, mono⟩
    next => cases computed
  · intro point computed
    rw [writeTimeoutPoint, addTo_eq_deadline nowNonneg timeoutNonneg] at computed
    rw [writeTimeoutPoint, addTo_eq_deadline nowNonneg shorterNonneg]
    split at computed
    next inRange =>
      rw [if_pos (by omega), ← Option.some.inj computed]
      exact ⟨_, rfl, mono⟩
    next => cases computed
  · intro later expired
    rw [isConnectionNotResponding_eq nowNonneg timeoutNonneg] at expired
    rw [isConnectionNotResponding_eq nowNonneg shorterNonneg]
    split at expired
    next inRange =>
      have after := of_decide_eq_true (Option.some.inj expired)
      rw [if_pos (by omega), decide_eq_true (by omega)]
    next => cases expired

/-- Five seconds, one second after the clock was started. -/
theorem deadlines_exact_seconds :
    waitForDeadline 1000000000 5000 = some 6000000000 ∧
    writeTimeoutPoint 1000000000 (some 5000) = some 6000000000 ∧
    isConnectionNotResponding 5000 (some 1000000000) 6000000001 = some true := by
  obtain ⟨wait, write, watcher, -⟩ :=
    deadlines_exact 1000000000 5000 (by decide) (by decide) (by decide) (by decide)
  exact ⟨wait, write, watcher 6000000001⟩

/-- The longest timeout overflows at all three places. -/
theorem longest_timeout_overflows :
    ¬ ∀ now timeout : Int, 0 ≤ now → now ≤ timePointMax → 0 ≤ timeout → timeout ≤ millisecondsMax →
      waitForDeadline now timeout = some (deadline now timeout) ∨
      writeTimeoutPoint now (some timeout) = some (deadline now timeout) ∨
      isConnectionNotResponding timeout (some now) now = some (decide (now > deadline now timeout)) := by
  intro computed
  rcases computed 0 millisecondsMax (by decide) (by decide) (by decide) (by decide) with wait | write | watcher
  · exact absurd wait (by decide)
  · exact absurd write (by decide)
  · exact absurd watcher (by decide)

/-! ### The models with unbounded times -/

/-- The check of CommonRpc.Core.Connection, if nothing overflows. -/
theorem isConnectionNotResponding_eq_watcher (watcher : ConnectionWatcher) {period start : Int}
    (inNanoseconds : watcher.pingPeriod = period * nanosecondsPerMillisecond)
    (waiting : watcher.startPingWaiting = some start) (startNonneg : 0 ≤ start) (periodNonneg : 0 ≤ period)
    (inRange : start + period * nanosecondsPerMillisecond ≤ timePointMax) (now : Int) :
    isConnectionNotResponding period (some start) now = some (watcher.isConnectionNotResponding now) := by
  rw [isConnectionNotResponding_eq startNonneg periodNonneg, if_pos inRange, deadline, Int.min_eq_left inRange,
    ConnectionWatcher.isConnectionNotResponding, waiting, inNanoseconds]

/-- The check of CommonRpc.Core.MemBuffer on the task that `writeAsync` posts, if nothing overflows. -/
theorem isWriteTimedOut_eq_task {now : Int} (timeout : Nat) (nowNonneg : 0 ≤ now)
    (inRange : now + timeout * nanosecondsPerMillisecond ≤ timePointMax) (s : MemBuffer) (data : Buffer)
    (valid : s.isValid = true) :
    ∃ task : WriteTask, (s.writeAsync data (some timeout) now).writeStrand = s.writeStrand ++ [task] ∧
      ∀ later, (writeTimeoutPoint now (some timeout)).map (isWriteTimedOut · later) =
        some (task.timeoutPoint.any fun point => later > point) := by
  refine ⟨{ message := { writeId := s.writeCalls.length, data }
            timeoutPoint := some (now + timeout * nanosecondsPerMillisecond) }, ?_, ?_⟩
  · rw [MemBuffer.writeAsync, if_pos valid]
    rfl
  · intro later
    rw [writeTimeoutPoint, addTo_eq_deadline nowNonneg (Int.natCast_nonneg timeout), if_pos inRange, deadline,
      Int.min_eq_left inRange]
    rfl

end CommonRpc.Deadlines
