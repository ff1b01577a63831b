/-
Module: CommonRpc.Core.Deadlines
Purpose: The points of time at which `event::wait_for`, `mem_buffer::write_async` and `connection_watcher` give up,
  computed as the source does: 64-bit signed counts, nanoseconds for the steady clock and milliseconds for the
  timeouts. The other modules have times as integers without a bound.
Trusted boundary: the clock shows a point that is not negative
-/
import CommonRpc.Lib.Chrono

namespace CommonRpc.Deadlines

open Lib

/-- The bits of a count. -/
def countWidth : Nat := 64

def nanosecondsPerMillisecond : Int := 1000000

/-- `steady_clock::time_point::max()` -/
def timePointMax : Int := Chrono.maxValue countWidth

/-- `milliseconds::max()` -/
def millisecondsMax : Int := Chrono.maxValue countWidth

/-- `event::impl::wait_for`: `(timeout > max - now) ? max : now + timeout`. -/
def waitForDeadline (now timeout : Int) : Option Int :=
  Chrono.guardedAdd countWidth nanosecondsPerMillisecond now timeout

/-- The `timeout_point` of `mem_buffer::write_async`. -/
def writeTimeoutPoint (now : Int) : Option Int → Option Int
  | some timeout => Chrono.addTo countWidth nanosecondsPerMillisecond now timeout
  | none => some timePointMax

/-- The check in `mem_buffer::write_impl`. -/
def isWriteTimedOut (timeoutPoint now : Int) : Bool := now > timeoutPoint

/-- `connection_watcher::is_connection_not_responding` -/
def isConnectionNotResponding (pingPeriod : Int) (startPingWaiting : Option Int) (now : Int) : Option Bool :=
  match startPingWaiting with
  | none => some false
  | some start =>
      (Chrono.addTo countWidth nanosecondsPerMillisecond start pingPeriod).map fun deadline => now > deadline

end CommonRpc.Deadlines
