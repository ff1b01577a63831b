/-
Module: CommonRpc.Core.MultipleTimer
Purpose: `cl::multiple_timer`, the one-shot timers every component of the library uses for its timeouts.
  A timer is kept with what its callback captured. Cancelling a timer that has not expired makes its
  handler complete with `operation_aborted`, and the callback is skipped; cancelling one whose handler is
  already queued changes nothing for the handler, and the callback still runs. Both flags are kept, so that
  "armed" (not cancelled) and "its callback may still run" stay different things.
Trusted boundary: the documented cancellation behaviour of `boost::asio::steady_timer`; timer ids do not wrap
-/

namespace CommonRpc

universe u

/-- One entry of `m_timers_map`. -/
structure TimerEntry (κ : Type u) where
  id : Nat
  /-- What the callback captured. -/
  callback : κ
  /-- The timer ran out and its handler is queued without an error. -/
  expired : Bool
  /-- `cancel` was called on the timer. -/
  cancelled : Bool
deriving DecidableEq, Repr

/-- `cl::multiple_timer`. -/
structure MultipleTimer (κ : Type u) where
  nextId : Nat := 0
  timers : List (TimerEntry κ) := []
deriving DecidableEq, Repr

namespace MultipleTimer

variable {κ : Type u}

/-- `start`; the new timer gets the id `nextId`. -/
def start (timer : MultipleTimer κ) (callback : κ) : MultipleTimer κ where
  nextId := timer.nextId + 1
  timers := timer.timers ++
    [{ id := timer.nextId, callback := callback, expired := false, cancelled := false }]

def cancel (timer : MultipleTimer κ) (id : Nat) : MultipleTimer κ :=
  { timer with timers := timer.timers.map fun entry =>
      if entry.id = id then { entry with cancelled := true } else entry }

def cancelAll (timer : MultipleTimer κ) : MultipleTimer κ :=
  { timer with timers := timer.timers.map fun entry => { entry with cancelled := true } }

/-- Cancel the timer an operation has, if it has one. -/
def cancelOptional (timer : MultipleTimer κ) : Option Nat → MultipleTimer κ
  | none => timer
  | some id => timer.cancel id

/-- The timer runs out: its handler is queued without an error. -/
def expire (timer : MultipleTimer κ) (id : Nat) : Option (MultipleTimer κ) :=
  match timer.timers.find? fun entry => entry.id = id with
  | none => none
  | some entry =>
      if entry.expired ∨ entry.cancelled then none
      else some { timer with timers := timer.timers.map fun other =>
        if other.id = id then { other with expired := true } else other }

/-- The handler runs: it forgets the timer and, unless the wait was aborted, calls the callback. A timer
    that neither expired nor was cancelled has no handler to run. -/
def handle (timer : MultipleTimer κ) (id : Nat) : Option (MultipleTimer κ × Option κ) :=
  match timer.timers.find? fun entry => entry.id = id with
  | none => none
  | some entry =>
      let rest := { timer with timers := timer.timers.filter fun other => other.id ≠ id }
      if entry.expired then some (rest, some entry.callback)
      else if entry.cancelled then some (rest, none)
      else none

/-- The timer is armed: started, not cancelled, and its handler has not run. -/
def Armed (timer : MultipleTimer κ) (id : Nat) : Prop :=
  ∃ entry ∈ timer.timers, entry.id = id ∧ entry.cancelled = false

end MultipleTimer

end CommonRpc
