/-
Module: CommonRpc.Proofs.TcpPipeClientEnv
Purpose: What a call of `open_pipe` returns, in every order of connect handlers, timers, cancellations and
  continuations: the first cancellation before the connect handler decides, and a connection only if there was none.
  A connection that was handed out is never closed again, and no cancelled operation waits for the network.
Trusted boundary: none
-/
import CommonRpc.Core.TcpPipeClientEnv
import CommonRpc.Lib.Table
import CommonRpc.Proofs.MultipleTimer

namespace CommonRpc

open Lib

namespace OpenStage

def result : OpenStage → Option PipeWaitRes
  | .connecting | .connected _ => none
  | .decided result | .resolved result | .untimed result | .erased result => some result

/-- How many steps are left once the connect is over. -/
def left : OpenStage → Nat
  | .connecting | .connected _ => 4
  | .decided _ => 3
  | .resolved _ => 2
  | .untimed _ => 1
  | .erased _ => 0

end OpenStage

namespace OpenOperation

variable {op op' : OpenOperation} {e : Event}

/-- The socket and the flags of an operation agree with what was decided. -/
structure Sound (op : OpenOperation) : Prop where
  success : op.stage.result = some .success ↔ op.socket = .moved
  valid : op.isSocketValid = false ↔ op.socket = .moved
  intact : op.socket ≠ .closedMoved
  closed : op.wasCanceled = true → op.socket ≠ .held
  aborted : op.wasCanceled = true → op.stage ≠ .connecting
  timeout : op.stage.result = some .timeout → op.wasCanceled = true ∧ op.canceledByTimer = true
  canceled : op.stage.result = some .canceled → op.wasCanceled = true ∧ op.canceledByTimer = false

/-- The steps of an operation, from the stages they need. -/
inductive Advances (op : OpenOperation) : Event → OpenOperation → Prop
  | connectCompletes (ec : ErrorCode) (stage : op.stage = .connecting) :
      Advances op (.connectCompletes ec) { op with stage := .connected ec }
  | connectHandler (ec : ErrorCode) (stage : op.stage = .connected ec) :
      Advances op .connectHandler (op.onConnect ec)
  | setValue (result : PipeWaitRes) (stage : op.stage = .decided result) :
      Advances op .setValue { op with stage := .resolved result }
  | cancelTimer (result : PipeWaitRes) (stage : op.stage = .resolved result) :
      Advances op .cancelTimer { op with stage := .untimed result }
  | erase (result : PipeWaitRes) (stage : op.stage = .untimed result) :
      Advances op .erase { op with stage := .erased result }

theorem step_advances (stepped : op.step e = some op') : Advances op e op' := by
  unfold step at stepped
  split at stepped
  · next stage => exact Option.some.inj stepped ▸ .connectCompletes _ stage
  · next stage => exact Option.some.inj stepped ▸ .connectHandler _ stage
  · next stage => exact Option.some.inj stepped ▸ .setValue _ stage
  · next stage => exact Option.some.inj stepped ▸ .cancelTimer _ stage
  · next stage => exact Option.some.inj stepped ▸ .erase _ stage
  · cases stepped

/-- A step to a stage with the same result. -/
theorem Sound.move (sound : op.Sound) {stage : OpenStage} (same : stage.result = op.stage.result)
    (started : stage ≠ .connecting) : { op with stage := stage }.Sound where
  success := same ▸ sound.success
  valid := sound.valid
  intact := sound.intact
  closed := sound.closed
  aborted _ := started
  timeout late := sound.timeout (same ▸ late)
  canceled stopped := sound.canceled (same ▸ stopped)

theorem onConnect_sound (sound : op.Sound) (pending : op.stage.result = none) (ec : ErrorCode) :
    (op.onConnect ec).Sound := by
  have unmoved : op.socket ≠ .moved := fun moved => nomatch pending.symm.trans (sound.success.mpr moved)
  obtain ⟨-, valid, intact, closed, -, -, -⟩ := sound
  unfold onConnect
  split
  · next was =>
      -- the result says which flag was set with the cancellation
      unfold cancelResult
      split
      · next byTimer =>
          exact ⟨by simp [OpenStage.result, unmoved], valid, intact, closed, fun _ => nofun,
            fun _ => ⟨was, byTimer⟩, by simp [OpenStage.result]⟩
      · next byCaller =>
          exact ⟨by simp [OpenStage.result, unmoved], valid, intact, closed, fun _ => nofun,
            by simp [OpenStage.result], fun _ => ⟨was, Bool.eq_false_of_not_eq_true byCaller⟩⟩
  · next wasNot =>
      have never {P : Prop} (was : op.wasCanceled = true) : P := absurd was wasNot
      split
      · exact ⟨by simp [OpenStage.result], by simp, by simp, never, never, by simp [OpenStage.result],
          by simp [OpenStage.result]⟩
      · exact ⟨by simp [OpenStage.result, unmoved], valid, intact, never, never, by simp [OpenStage.result],
          by simp [OpenStage.result]⟩

theorem Advances.sound (advances : Advances op e op') (sound : op.Sound) : op'.Sound := by
  cases advances with
  | connectCompletes ec stage => exact sound.move (by rw [stage]; rfl) nofun
  | connectHandler ec stage => exact onConnect_sound sound (by rw [stage]; rfl) ec
  | setValue result stage => exact sound.move (by rw [stage]; rfl) nofun
  | cancelTimer result stage => exact sound.move (by rw [stage]; rfl) nofun
  | erase result stage => exact sound.move (by rw [stage]; rfl) nofun

/-- Only a cancellation changes the flags. -/
theorem Advances.same (advances : Advances op e op') : op'.clientId = op.clientId ∧ op'.timerId = op.timerId ∧
    op'.wasCanceled = op.wasCanceled ∧ op'.canceledByTimer = op.canceledByTimer := by
  cases advances with
  | connectHandler ec stage =>
      unfold onConnect
      split
      · exact ⟨rfl, rfl, rfl, rfl⟩
      · split <;> exact ⟨rfl, rfl, rfl, rfl⟩
  | _ => exact ⟨rfl, rfl, rfl, rfl⟩

theorem onConnect_left (op : OpenOperation) (ec : ErrorCode) : (op.onConnect ec).stage.left = 3 := by
  unfold onConnect
  split
  · rfl
  · split <;> rfl

/-- A step that does not come from the network. -/
def Event.isOwn : Event → Bool
  | .connectCompletes _ => false
  | _ => true

theorem Advances.left (advances : Advances op e op') :
    (op'.stage.left = 0 ↔ e = .erase) ∧ op.stage.left ≠ 0 ∧
      (op'.stage.left ≤ 1 → e = .cancelTimer ∨ op.stage.left ≤ 1) ∧
      (e.isOwn = true → op'.stage.left + 1 = op.stage.left ∧ op'.stage ≠ .connecting) := by
  cases advances with
  | connectCompletes ec stage => simp [OpenStage.left, stage, Event.isOwn]
  | connectHandler ec stage =>
      rw [onConnect_left, stage]
      refine ⟨by simp, by simp [OpenStage.left], by simp, fun _ => ⟨rfl, fun connecting => ?_⟩⟩
      have left := onConnect_left op ec
      rw [connecting] at left
      cases left
  | setValue result stage => simp [OpenStage.left, stage]
  | cancelTimer result stage => simp [OpenStage.left, stage]
  | erase result stage => simp [OpenStage.left, stage]

/-- A cancellation does nothing the second time, and leaves alone a socket that an endpoint has. -/
theorem cancel_cases (op : OpenOperation) (byTimer : Bool) :
    op.wasCanceled = true ∧ op.cancel byTimer = op ∨
      op.wasCanceled = false ∧ op.cancel byTimer =
        let canceled := { op with wasCanceled := true, canceledByTimer := byTimer }
        if op.isSocketValid then canceled.close else canceled := by
  unfold cancel
  split
  · next was => exact .inl ⟨was, rfl⟩
  · next wasNot => exact .inr ⟨Bool.eq_false_of_not_eq_true wasNot, rfl⟩

/-- Closing the socket ends the connect under way; an operation that has decided stays as it is. -/
theorem close_stage (op : OpenOperation) :
    op.close.stage.result = op.stage.result ∧ op.close.stage.left = op.stage.left ∧
      op.close.stage ≠ .connecting := by
  dsimp only [close]
  split
  · next connecting => simp [connecting, OpenStage.result, OpenStage.left]
  · next started => exact ⟨rfl, rfl, started⟩

theorem cancel_sound (sound : op.Sound) (byTimer : Bool) : (op.cancel byTimer).Sound := by
  rcases op.cancel_cases byTimer with ⟨-, same⟩ | ⟨wasNot, changed⟩
  · rwa [same]
  obtain ⟨success, valid, intact, closed, -, timeout, canceled⟩ := sound
  -- an operation that was not cancelled has neither of the two results
  have inTime : op.stage.result ≠ some .timeout := fun late => nomatch wasNot.symm.trans (timeout late).1
  have unstopped : op.stage.result ≠ some .canceled := fun stopped => nomatch wasNot.symm.trans (canceled stopped).1
  rw [changed]
  dsimp only
  split
  · next isValid =>
      have unmoved : op.socket ≠ .moved := fun moved => nomatch isValid.symm.trans (valid.mpr moved)
      obtain ⟨sameResult, -, started⟩ :=
        close_stage { op with wasCanceled := true, canceledByTimer := byTimer }
      have shut : (close { op with wasCanceled := true, canceledByTimer := byTimer }).socket = .closed :=
        if_neg unmoved
      refine ⟨?_, ?_, ?_, ?_, fun _ => started, ?_, ?_⟩
      · rw [sameResult, shut]
        exact iff_of_false (fun done => unmoved (success.mp done)) nofun
      · rw [shut]
        exact iff_of_false (by simp [close, isValid]) nofun
      · rw [shut]
        nofun
      · rw [shut]
        nofun
      · rw [sameResult]
        exact fun late => absurd late inTime
      · rw [sameResult]
        exact fun stopped => absurd stopped unstopped
  · next isMoved =>
      have moved := valid.mp (Bool.eq_false_of_not_eq_true isMoved)
      have done := success.mpr moved
      refine ⟨success, valid, intact, fun _ => by simp [moved], fun _ connecting => ?_,
        fun late => absurd late inTime, fun stopped => absurd stopped unstopped⟩
      rw [show op.stage = .connecting from connecting] at done
      cases done

theorem cancel_stage (op : OpenOperation) (byTimer : Bool) :
    (op.cancel byTimer).stage.left = op.stage.left ∧
      (op.stage ≠ .connecting → (op.cancel byTimer).stage ≠ .connecting) := by
  rcases op.cancel_cases byTimer with ⟨-, same⟩ | ⟨-, changed⟩
  · rw [same]
    exact ⟨rfl, id⟩
  · rw [changed]
    dsimp only
    split
    · exact ⟨(close_stage _).2.1, fun _ => (close_stage _).2.2⟩
    · exact ⟨rfl, id⟩

theorem wasCanceled_cancel (op : OpenOperation) (byTimer : Bool) : (op.cancel byTimer).wasCanceled = true := by
  rcases op.cancel_cases byTimer with ⟨was, same⟩ | ⟨-, changed⟩
  · rwa [same]
  · rw [changed]
    dsimp only
    split <;> rfl

theorem cancel_same (op : OpenOperation) (byTimer : Bool) :
    (op.cancel byTimer).clientId = op.clientId ∧ (op.cancel byTimer).timerId = op.timerId ∧
      (op.wasCanceled = true ∧ op.cancel byTimer = op ∨ (op.cancel byTimer).canceledByTimer = byTimer) := by
  rcases op.cancel_cases byTimer with ⟨was, same⟩ | ⟨-, changed⟩
  · rw [same]
    exact ⟨rfl, rfl, .inl ⟨was, rfl⟩⟩
  · rw [changed]
    dsimp only
    split <;> exact ⟨rfl, rfl, .inr rfl⟩

theorem start_sound (clientId : Nat) (timerId : Option Nat) (setUp : Bool) :
    (start { clientId, timerId } setUp).Sound ∧ (start { clientId, timerId } setUp).timerId = timerId ∧
      (start { clientId, timerId } setUp).wasCanceled = false ∧
      2 ≤ (start { clientId, timerId } setUp).stage.left := by
  cases setUp <;>
    exact ⟨by constructor <;> simp [start, OpenStage.result], rfl, rfl, by simp [start, OpenStage.left]⟩

end OpenOperation

namespace TcpPipeClientEnv

variable {s s' : TcpPipeClientEnv} {es es' : List Event}

/-- Who asked for a cancellation that took effect. -/
def Asked (es : List Event) (op : OpenOperation) : Prop :=
  if op.canceledByTimer then ∃ timerId, op.timerId = some timerId ∧ .timerHandler timerId ∈ es
  else ∃ clientId, .cancelPendingClientEndpoints clientId ∈ es ∧ clientId.all (op.clientId == ·) = true

/-- The map has the operations that are not over; timers belong to operations, and are cancelled before these are
    over. -/
structure Tidy (es : List Event) (s : TcpPipeClientEnv) : Prop where
  sound : ∀ op ∈ s.operations, op.Sound
  asked : ∀ op ∈ s.operations, op.wasCanceled = true → Asked es op
  listed : ∀ id, id ∈ s.openOperations ↔ ∃ op, s.operations[id]? = some op ∧ op.stage.left ≠ 0
  calls : ∀ timerId id, s.timer.Calls timerId id → ∃ op, s.operations[id]? = some op ∧ op.timerId = some timerId
  fresh : ∀ op ∈ s.operations, ∀ timerId, op.timerId = some timerId → timerId < s.timer.nextId
  untimed : ∀ op ∈ s.operations, op.stage.left ≤ 1 → ∀ timerId, op.timerId = some timerId → ¬ s.timer.Armed timerId

theorem Asked.mono {op : OpenOperation} (asked : Asked es op) (more : es ⊆ es') : Asked es' op := by
  unfold Asked at asked ⊢
  split at asked
  · next byTimer =>
      obtain ⟨timerId, own, member⟩ := asked
      exact (if_pos byTimer).symm ▸ ⟨timerId, own, more member⟩
  · next byCaller =>
      obtain ⟨clientId, member, hit⟩ := asked
      exact (if_neg byCaller).symm ▸ ⟨clientId, more member, hit⟩

/-- A step that changes each operation by itself and starts no timer. -/
theorem Tidy.evolve (tidy : Tidy es s) {f : Nat → OpenOperation → OpenOperation}
    (ops : ∀ id, s'.operations[id]? = (s.operations[id]?).map (f id)) (timer : s.timer.Shrinks s'.timer)
    (each : ∀ id op, s.operations[id]? = some op → (f id op).Sound ∧ (f id op).timerId = op.timerId ∧
      ((f id op).wasCanceled = true → Asked es' (f id op)))
    (listed : ∀ id, id ∈ s'.openOperations ↔ ∃ op, s.operations[id]? = some op ∧ (f id op).stage.left ≠ 0)
    (untimed : ∀ id op, s.operations[id]? = some op → (f id op).stage.left ≤ 1 →
      ∀ timerId, op.timerId = some timerId → ¬ s'.timer.Armed timerId) : Tidy es' s' := by
  have all {P : OpenOperation → Prop} (here : ∀ id op, s.operations[id]? = some op → P (f id op)) :
      ∀ op ∈ s'.operations, P op := by
    intro op member
    obtain ⟨id, there⟩ := List.mem_iff_getElem?.mp member
    rw [ops, Option.map_eq_some_iff] at there
    obtain ⟨before, found, rfl⟩ := there
    exact here id before found
  refine ⟨all fun id op found => (each id op found).1, all fun id op found => (each id op found).2.2, fun id => ?_,
    fun timerId id calls => ?_, all fun id op found timerId own => ?_, all fun id op found last timerId own => ?_⟩
  · simp only [listed id, ops, Option.map_eq_some_iff, exists_exists_and_eq_and]
  · obtain ⟨op, found, own⟩ := tidy.calls timerId id (timer.calls calls)
    exact ⟨f id op, by rw [ops, found]; rfl, (each id op found).2.1.trans own⟩
  · rw [timer.nextId]
    exact tidy.fresh op (List.mem_of_getElem? found) timerId ((each id op found).2.1 ▸ own)
  · exact untimed id op found last timerId ((each id op found).2.1 ▸ own)

theorem Tidy.cancelWhere (tidy : Tidy es s) (more : es ⊆ es') {asked : Nat → OpenOperation → Bool} {byTimer : Bool}
    (reason : ∀ id op, s.operations[id]? = some op → asked id op = true →
      (op.cancel byTimer).canceledByTimer = byTimer → Asked es' (op.cancel byTimer)) :
    Tidy es' (s.cancelWhere asked byTimer) := by
  have left id (op : OpenOperation) :
      (if id ∈ s.openOperations ∧ asked id op then op.cancel byTimer else op).stage.left = op.stage.left := by
    split <;> simp [(OpenOperation.cancel_stage _ _).1]
  refine tidy.evolve (fun id => List.getElem?_mapIdx) (.refl _) (fun id op found => ?_) (fun id => ?_)
    (fun id op found last timerId own => ?_)
  · have sound := tidy.sound op (List.mem_of_getElem? found)
    have before canceled := (tidy.asked op (List.mem_of_getElem? found) canceled).mono more
    split
    · next hit =>
        obtain ⟨-, timerId, ⟨canceled, same⟩ | first⟩ := op.cancel_same byTimer
        · exact ⟨by rwa [same], timerId, fun _ => by rw [same]; exact before canceled⟩
        · exact ⟨OpenOperation.cancel_sound sound byTimer, timerId, fun _ => reason id op found hit.2 first⟩
    · exact ⟨sound, rfl, before⟩
  · simp only [left]
    exact tidy.listed id
  · exact tidy.untimed op (List.mem_of_getElem? found) (left id op ▸ last) timerId own

theorem Tidy.operation (tidy : Tidy es s) (more : es ⊆ es') {id : Nat} {e : OpenOperation.Event}
    (stepped : s.step (.operation id e) = some s') : Tidy es' s' := by
  obtain ⟨op, found, taken⟩ := Option.bind_eq_some_iff.mp stepped
  obtain ⟨op', own, rfl⟩ := Option.map_eq_some_iff.mp taken
  have advances := OpenOperation.step_advances own
  obtain ⟨client, timerId, was, byTimer⟩ := advances.same
  have inside := (List.getElem?_eq_some_iff.mp found).1
  refine tidy.evolve (f := fun i old => if id = i then op' else old) (fun i => ?_) ?_ (fun i old there => ?_)
    (fun i => ?_) (fun i old there last timerId' own' => ?_)
  · rw [List.getElem?_set]
    by_cases here : id = i
    · subst here
      simp [inside]
    · simp [here]
  · dsimp only
    split
    · exact MultipleTimer.shrinks_cancelOptional _ _
    · exact .refl _
  · have sound := tidy.sound old (List.mem_of_getElem? there)
    have asked := tidy.asked old (List.mem_of_getElem? there)
    split
    · next here =>
        subst here
        obtain rfl : op = old := Option.some.inj (found.symm.trans there)
        refine ⟨advances.sound sound, timerId, fun canceled => ?_⟩
        have reason := (asked (was ▸ canceled)).mono more
        simpa only [Asked, client, timerId, byTimer] using reason
    · exact ⟨sound, rfl, fun canceled => (asked canceled).mono more⟩
  · by_cases here : id = i
    · subst here
      have listed : id ∈ s.openOperations := (tidy.listed id).mpr ⟨op, found, advances.left.2.1⟩
      by_cases erased : e = .erase
      · simp [erased, found, advances.left.1.mpr erased]
      · simp [erased, found, listed, mt advances.left.1.mp erased]
    · simp only [if_neg here, ← tidy.listed i]
      split
      · simp [Ne.symm here]
      · rfl
  · intro armed
    have before := tidy.untimed old (List.mem_of_getElem? there)
    dsimp only at armed
    have still : s.timer.Armed timerId' := by
      split at armed
      · exact (MultipleTimer.armed_cancelOptional.mp armed).1
      · exact armed
    by_cases here : id = i
    · subst here
      obtain rfl : op = old := Option.some.inj (found.symm.trans there)
      rw [if_pos rfl] at last
      rcases advances.left.2.2.1 last with isCancel | low
      · rw [if_pos isCancel] at armed
        exact (MultipleTimer.armed_cancelOptional.mp armed).2 own'
      · exact before low timerId' own' still
    · exact before (by rwa [if_neg here] at last) timerId' own' still

theorem Tidy.openPipe (tidy : Tidy es s) (more : es ⊆ es') (clientId : Nat) (timed setUp : Bool) :
    Tidy es' (s.openPipe clientId timed setUp) := by
  obtain ⟨sound, own, was, left⟩ :=
    OpenOperation.start_sound clientId (if timed then some s.timer.nextId else none) setUp
  refine ⟨?_, ?_, fun id => ?_, fun timerId id calls => ?_, ?_, ?_⟩
  · exact List.forall_mem_append.mpr ⟨tidy.sound, by simpa using sound⟩
  · refine List.forall_mem_append.mpr ⟨fun op member canceled => (tidy.asked op member canceled).mono more, ?_⟩
    simp [was]
  · have before := tidy.listed id
    simp only [TcpPipeClientEnv.openPipe, List.mem_append, List.mem_singleton]
    rcases Nat.lt_trichotomy id s.operations.length with inside | rfl | outside
    · simp [List.getElem?_append_left inside, before, inside.ne]
    · simp [Nat.ne_of_gt (Nat.lt_of_lt_of_le Nat.two_pos left)]
    · have gone {op : OpenOperation} : (s.operations ++ [op])[id]? = none :=
        List.getElem?_eq_none (by rw [List.length_append]; exact outside)
      simp [before, List.getElem?_eq_none outside.le, gone, outside.ne']
  · cases timed with
    | false =>
        obtain ⟨op, found, own⟩ := tidy.calls timerId id calls
        exact ⟨op, Table.push_old found, own⟩
    | true =>
        rcases MultipleTimer.calls_start.mp calls with old | ⟨rfl, rfl⟩
        · obtain ⟨op, found, own⟩ := tidy.calls timerId id old
          exact ⟨op, Table.push_old found, own⟩
        · exact ⟨_, List.getElem?_concat_length, own⟩
  · refine List.forall_mem_append.mpr ⟨fun op member timerId its => ?_, ?_⟩
    · have before := tidy.fresh op member timerId its
      cases timed with
      | false => exact before
      | true => exact Nat.lt_succ_of_lt before
    · intro op member timerId its
      rw [List.mem_singleton.mp member, own] at its
      cases timed with
      | false => cases its
      | true => exact Option.some.inj its ▸ Nat.lt_succ_self _
  · refine List.forall_mem_append.mpr ⟨fun op member last timerId its armed => ?_, ?_⟩
    · have before := tidy.untimed op member last timerId its
      cases timed with
      | false => exact before armed
      | true =>
          rcases MultipleTimer.armed_start.mp armed with old | rfl
          · exact before old
          · exact Nat.lt_irrefl _ (tidy.fresh op member _ its)
    · intro op member last
      rw [List.mem_singleton.mp member] at last
      omega

theorem step_tidy (tidy : Tidy es s) {e : Event} (stepped : s.step e = some s') : Tidy (es ++ [e]) s' := by
  have more : es ⊆ es ++ [e] := List.subset_append_left _ _
  -- a step of the timers alone
  have timers {timer : MultipleTimer Nat} (shrinks : s.timer.Shrinks timer)
      (armed : ∀ timerId, timer.Armed timerId → s.timer.Armed timerId) :
      Tidy (es ++ [e]) { s with timer := timer } :=
    tidy.evolve (f := fun _ op => op) (fun id => by simp) shrinks
      (fun id op found => ⟨tidy.sound op (List.mem_of_getElem? found), rfl,
        fun canceled => (tidy.asked op (List.mem_of_getElem? found) canceled).mono more⟩)
      tidy.listed (fun id op found last timerId own still =>
        tidy.untimed op (List.mem_of_getElem? found) last timerId own (armed timerId still))
  cases e with
  | openPipe clientId timed setUp => exact Option.some.inj stepped ▸ tidy.openPipe more clientId timed setUp
  | operation id e => exact tidy.operation more stepped
  | timerExpires timerId =>
      obtain ⟨timer, expired, rfl⟩ := Option.map_eq_some_iff.mp stepped
      exact timers (MultipleTimer.shrinks_expire expired) fun _ => (MultipleTimer.armed_expire expired).mp
  | timerHandler timerId =>
      obtain ⟨⟨timer, called⟩, handled, rfl⟩ := Option.map_eq_some_iff.mp stepped
      have forgotten := timers (MultipleTimer.shrinks_handle handled)
        fun _ armed => ((MultipleTimer.armed_handle handled).mp armed).1
      cases called with
      | none => exact forgotten
      | some id =>
          obtain ⟨op, found, own⟩ := tidy.calls timerId id (MultipleTimer.calls_of_handle handled)
          refine forgotten.cancelWhere (List.Subset.refl _) fun other op' there hit byTimer => ?_
          obtain rfl : other = id := by simpa using hit
          obtain rfl : op = op' := Option.some.inj (found.symm.trans there)
          rw [Asked, byTimer, (op.cancel_same true).2.1]
          exact ⟨timerId, own, by simp⟩
  | cancelPendingClientEndpoints clientId =>
      obtain rfl := Option.some.inj stepped
      refine tidy.cancelWhere more fun id op found hit byTimer => ?_
      rw [Asked, byTimer, (op.cancel_same false).1]
      exact ⟨clientId, by simp, hit⟩

theorem run_tidy (ran : machine.run {} es = some s) : Tidy es s := by
  refine Machine.run_induction (P := Tidy) ?_ (fun _ tidy stepped => step_tidy tidy stepped) ran
  exact ⟨by simp, by simp, by simp, fun _ _ ⟨_, member, _⟩ => absurd member List.not_mem_nil, by simp, by simp⟩

/-- Over every run, for every call of `open_pipe`: a connection is returned exactly when the socket has gone to
    it, and it is not closed afterwards; a call that timed out or was cancelled has closed its socket, and its own
    timer or a cancellation for its client is the reason; and the call is in the map until its continuation has
    run, which leaves no timer behind. -/
theorem opens_answered (ran : machine.run {} es = some s) {id : Nat} {op : OpenOperation}
    (found : s.operations[id]? = some op) :
    (op.stage.result = some .success ↔ op.socket = .moved) ∧ op.socket ≠ .closedMoved ∧
      (op.stage.result = some .timeout →
        op.socket = .closed ∧ ∃ timerId, op.timerId = some timerId ∧ .timerHandler timerId ∈ es) ∧
      (op.stage.result = some .canceled → op.socket = .closed ∧
        ∃ clientId, .cancelPendingClientEndpoints clientId ∈ es ∧ clientId.all (op.clientId == ·) = true) ∧
      (id ∈ s.openOperations ↔ ∀ result, op.stage ≠ .erased result) ∧
      ∀ result timerId, op.stage = .erased result → op.timerId = some timerId → ¬ s.timer.Armed timerId := by
  have tidy := run_tidy ran
  have member := List.mem_of_getElem? found
  obtain ⟨success, valid, intact, closed, -, timeout, canceled⟩ := tidy.sound op member
  have asked := tidy.asked op member
  have shut (was : op.wasCanceled = true) (missed : op.stage.result ≠ some .success) : op.socket = .closed := by
    cases socket : op.socket with
    | held => exact absurd socket (closed was)
    | closed => rfl
    | moved => exact absurd (success.mpr socket) missed
    | closedMoved => exact absurd socket intact
  refine ⟨success, intact, fun late => ?_, fun stopped => ?_, ?_, fun result timerId erased own => ?_⟩
  · obtain ⟨was, byTimer⟩ := timeout late
    rw [Asked, if_pos byTimer] at asked
    exact ⟨shut was (by simp [late]), asked was⟩
  · obtain ⟨was, byTimer⟩ := canceled stopped
    rw [Asked, byTimer] at asked
    exact ⟨shut was (by simp [stopped]), asked was⟩
  · rw [tidy.listed id]
    cases stage : op.stage <;> simp [found, stage, OpenStage.left]
  · exact tidy.untimed op member (by simp [erased, OpenStage.left]) timerId own

/-- The timer of the first call beats its handler; the second call is cancelled after it has its connection. -/
theorem opens_answered_late :
    ∃ s, machine.run {} [.openPipe 7 true true, .openPipe 8 false true, .operation 0 (.connectCompletes .ok),
        .timerExpires 0, .timerHandler 0, .operation 0 .connectHandler, .operation 1 (.connectCompletes .ok),
        .operation 1 .connectHandler, .cancelPendingClientEndpoints (some 8)] = some s ∧
      (s.operations.map (·.stage.result) = [some .timeout, some .success] ∧
        s.operations.map (·.wasCanceled) = [true, true]) ∧
      ∀ op ∈ s.operations, op.socket ≠ .closedMoved := by
  refine Machine.exists_run ⟨_, rfl, rfl, rfl⟩ fun ran _ op member => ?_
  obtain ⟨id, found⟩ := List.mem_iff_getElem?.mp member
  exact (opens_answered ran found).2.1

/-- The handlers and continuations of the operations: what the environment does by itself. -/
def Event.isOwn : Event → Bool
  | .operation _ e => e.isOwn
  | _ => false

def Event.isOpen : Event → Bool
  | .openPipe .. => true
  | _ => false

/-- Runs without new calls of `open_pipe`; timers may still run out, and cancellations may still be asked for. -/
def closing : Machine TcpPipeClientEnv Event := machine.restrict fun _ e => !e.isOpen

/-- No operation waits for the network. -/
def Settled (s : TcpPipeClientEnv) : Prop := ∀ op ∈ s.operations, op.stage ≠ .connecting

def left (s : TcpPipeClientEnv) : Nat := (s.operations.map fun op => op.stage.left).sum

theorem cancelAll_settled (tidy : Tidy es s) (tidy' : Tidy es' (s.cancelPendingClientEndpoints none)) :
    Settled (s.cancelPendingClientEndpoints none) := by
  intro op member
  have aborted := (tidy'.sound op member).aborted
  obtain ⟨id, there⟩ := List.mem_iff_getElem?.mp member
  rw [cancelPendingClientEndpoints, cancelWhere, List.getElem?_mapIdx, Option.map_eq_some_iff] at there
  obtain ⟨old, found, rfl⟩ := there
  by_cases unfinished : old.stage.left = 0
  · cases stage : old.stage with
    | erased result =>
        split
        · exact (old.cancel_stage false).2 (by simp [stage])
        · simp [stage]
    | _ => simp [stage, OpenStage.left] at unfinished
  · rw [if_pos ⟨(tidy.listed id).mpr ⟨old, found, unfinished⟩, rfl⟩] at aborted ⊢
    exact aborted (old.wasCanceled_cancel false)

theorem cancelWhere_settled (settled : Settled s) (asked : Nat → OpenOperation → Bool) (byTimer : Bool) :
    Settled (s.cancelWhere asked byTimer) ∧ (s.cancelWhere asked byTimer).left = s.left := by
  constructor
  · intro op member
    obtain ⟨id, inside, rfl⟩ := List.mem_mapIdx.mp member
    split
    · exact (OpenOperation.cancel_stage _ _).2 (settled _ (List.getElem_mem inside))
    · exact settled _ (List.getElem_mem inside)
  · refine congrArg List.sum (List.ext_getElem? fun id => ?_)
    simp only [cancelWhere, List.getElem?_map, List.getElem?_mapIdx, Option.map_map]
    refine Option.map_congr fun op found => ?_
    dsimp only [Function.comp]
    split
    · exact (op.cancel_stage byTimer).1
    · rfl

theorem closing_step {e : Event} (settled : Settled s) (stepped : closing.step s e = some s') :
    Settled s' ∧ s'.left + e.isOwn.toNat ≤ s.left := by
  obtain ⟨isOld, taken⟩ := Machine.restrict_step.mp stepped
  cases e with
  | openPipe clientId timed setUp => cases isOld
  | operation id e =>
      obtain ⟨op, found, taken⟩ := Option.bind_eq_some_iff.mp taken
      obtain ⟨op', ran, rfl⟩ := Option.map_eq_some_iff.mp taken
      have advances := OpenOperation.step_advances ran
      have isOwn : e.isOwn = true := by
        cases advances with
        | connectCompletes ec stage => exact absurd stage (settled op (List.mem_of_getElem? found))
        | _ => rfl
      obtain ⟨lower, started⟩ := advances.left.2.2.2 isOwn
      refine ⟨Table.forall_set settled started, ?_⟩
      have changed : ((s.operations.set id op').map fun op => op.stage.left).sum + op.stage.left =
          s.left + op'.stage.left := Table.sum_map_set found
      rw [left, Event.isOwn, isOwn, Bool.toNat_true]
      dsimp only
      omega
  | timerExpires timerId =>
      obtain ⟨timer, -, rfl⟩ := Option.map_eq_some_iff.mp taken
      exact ⟨settled, Nat.le_refl _⟩
  | timerHandler timerId =>
      obtain ⟨⟨timer, called⟩, -, rfl⟩ := Option.map_eq_some_iff.mp taken
      cases called with
      | none => exact ⟨settled, Nat.le_refl _⟩
      | some id =>
          obtain ⟨still, same⟩ :=
            cancelWhere_settled (s := { s with timer := timer }) settled (fun other _ => other == id) true
          exact ⟨still, same.le⟩
  | cancelPendingClientEndpoints clientId =>
      obtain rfl := Option.some.inj taken
      obtain ⟨still, same⟩ := cancelWhere_settled settled (fun _ op => clientId.all (op.clientId == ·)) false
      exact ⟨still, same.le⟩

/-- After `cancel_all_pending_client_endpoints`, as the destructor calls it, nothing waits for the network: the
    handlers and continuations that are left are so many at most, whatever timers and further cancellations come
    between them, and when they have run, every call has its result, and the map is empty. -/
theorem canceled_opens_end {later : List Event} {t : TcpPipeClientEnv}
    (ran : machine.run {} (es ++ [.cancelPendingClientEndpoints none]) = some s)
    (ended : closing.run s later = some t) :
    later.countP Event.isOwn ≤ s.left ∧ ((∀ e, e.isOwn = true → machine.step t e = none) →
      t.openOperations = [] ∧ ∀ op ∈ t.operations, ∃ result, op.stage = .erased result) := by
  have settled : Settled s := by
    obtain ⟨before, reached, stepped⟩ := Machine.run_append_eq_some.mp ran
    obtain rfl := Option.some.inj stepped
    exact cancelAll_settled (run_tidy reached) (run_tidy ran)
  refine ⟨Machine.run_countP_le (P := Settled) (fun before stepped => (closing_step before stepped).1)
    (fun before stepped => (closing_step before stepped).2) settled ended, fun stuck => ?_⟩
  have settled' : Settled t :=
    Machine.run_invariant (P := Settled) (fun before stepped => (closing_step before stepped).1) settled ended
  have tidy := run_tidy (Machine.run_append_eq_some.mpr ⟨s, ran, Machine.run_restrict ended⟩)
  have erased (id : Nat) (op : OpenOperation) (found : t.operations[id]? = some op) :
      ∃ result, op.stage = .erased result := by
    have idle (e : OpenOperation.Event) (isOwn : e.isOwn = true) : op.step e = none := by
      have none := stuck (.operation id e) isOwn
      simpa [machine, step, found] using none
    cases stage : op.stage with
    | connecting => exact absurd stage (settled' op (List.mem_of_getElem? found))
    | connected ec => simpa [OpenOperation.step, stage] using idle .connectHandler rfl
    | decided result => simpa [OpenOperation.step, stage] using idle .setValue rfl
    | resolved result => simpa [OpenOperation.step, stage] using idle .cancelTimer rfl
    | untimed result => simpa [OpenOperation.step, stage] using idle .erase rfl
    | erased result => exact ⟨result, rfl⟩
  refine ⟨List.eq_nil_iff_forall_not_mem.mpr fun id listed => ?_, fun op member => ?_⟩
  · obtain ⟨op, found, unfinished⟩ := (tidy.listed id).mp listed
    obtain ⟨result, stage⟩ := erased id op found
    exact unfinished (by rw [stage]; rfl)
  · obtain ⟨id, found⟩ := List.mem_iff_getElem?.mp member
    exact erased id op found

/-- One connect is under way and one has just succeeded when everything is cancelled; the timer of the first then
    runs out, and the handlers run. -/
theorem canceled_opens_end_example :
    ∃ s, machine.run {} ([.openPipe 7 true true, .openPipe 8 false true, .operation 1 (.connectCompletes .ok),
        .operation 1 .connectHandler] ++ [.cancelPendingClientEndpoints none]) = some s ∧
      (s.left = 7 ∧
        (closing.run s [.timerExpires 0, .operation 0 .connectHandler, .timerHandler 0, .operation 0 .setValue,
          .operation 1 .setValue, .operation 0 .cancelTimer, .operation 0 .erase, .operation 1 .cancelTimer,
          .operation 1 .erase]).map (fun t => t.operations.map (·.stage)) =
            some [.erased .canceled, .erased .success]) ∧
      ∀ later t, closing.run s later = some t → later.countP Event.isOwn ≤ 7 := by
  refine Machine.exists_run ⟨_, rfl, rfl, rfl⟩ fun ran ⟨bound, _⟩ later t ended => ?_
  rw [← bound]
  exact (canceled_opens_end ran ended).1

end TcpPipeClientEnv

end CommonRpc
