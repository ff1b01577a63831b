/-
Module: CommonRpc.Proofs.ServerConnectorFailures
Purpose: What a `start` that throws leaves behind. A connector that is running refuses and is not changed. If
  `create_pipe` throws, the flag of the new run and the notification of its start stay: the connector is active
  although no chain of the run waits for a pipe, and it refuses every later `start` until somebody calls `stop`.
Trusted boundary: none
-/
import CommonRpc.Core.ServerConnectorFailures
import CommonRpc.Proofs.ServerConnector

namespace CommonRpc.ServerConnector

open Lib

universe u v

variable {β : Type u} {ε : Type v} {s t : ServerConnector β}

/-! ### The two models -/

/-- A `create_pipe` that does not throw gives the `start` of CommonRpc.Core.ServerConnector. -/
theorem startWith_none (s : ServerConnector β) :
    (s.startWith none : ServerConnector β × Option (StartError ε)) =
      match s.start with
      | .ok t => (t, none)
      | .error message => (s, some (.logicError message)) := by
  rw [startWith, startPipeConnectWith, start, startPipeConnect]
  simp only [if_true]
  split <;> rfl

theorem startWith_of_active (active : s.isActive = true) (createPipe : Option ε) :
    s.startWith createPipe = (s, some (.logicError "server connector already running")) := by
  unfold startWith startPipeConnectWith
  rw [if_pos rfl, if_pos active]

theorem startWith_some_of_inactive (inactive : s.isActive = false) (exception : ε) :
    s.startWith (some exception) = (s.started, some (.createPipe exception)) := by
  rw [startWith, startPipeConnectWith, if_pos rfl, if_neg (Bool.not_eq_true _ ▸ inactive)]
  rfl

theorem startWith_none_of_inactive (inactive : s.isActive = false) :
    (s.startWith none : ServerConnector β × Option (StartError ε)) =
      (s.started.createPipe s.runs.length, none) := by
  rw [startWith, startPipeConnectWith, if_pos rfl, if_neg (Bool.not_eq_true _ ▸ inactive)]
  rfl

theorem isActive_started (s : ServerConnector β) : s.started.isActive = true := by
  simp [isActive, isRunning, started]

theorem startThrows_eq_some {exception : ε} (stepped : s.failingStep (.startThrows exception) = some t) :
    s.isActive = true ∧ t = s ∨ s.isActive = false ∧ t = s.started := by
  obtain rfl := Option.some.inj stepped
  cases active : s.isActive with
  | true => exact .inl ⟨rfl, congrArg Prod.fst (startWith_of_active active (some exception))⟩
  | false => exact .inr ⟨rfl, congrArg Prod.fst (startWith_some_of_inactive active exception)⟩

/-- The chain goes on to the handshake, or ends with the exception. -/
theorem connectNextThrows_eq_some {index : Nat} {exception : ε}
    (stepped : s.failingStep (.connectNextThrows index exception) = some t) :
    ∃ chain stage, s.chains[index]? = some chain ∧ chain.stage = .connected ∧
      (stage = .reading ∨ stage = .refused) ∧ t = s.setChain index { chain with stage } := by
  obtain ⟨chain, found, connected, rfl⟩ := onChain_eq_some.mp stepped
  simp only [startPipeConnectWith, Bool.false_eq_true, if_false]
  cases s.isRunning (some chain.run) with
  | false => exact ⟨chain, .reading, found, connected, .inl rfl, rfl⟩
  | true => exact ⟨chain, .refused, found, connected, .inr rfl, rfl⟩

theorem failingStep_sound {event : FailingEvent β ε} (sound : Sound s)
    (stepped : s.failingStep event = some t) : Sound t := by
  cases event with
  | regular event => exact step_sound sound stepped
  | startThrows exception =>
      rcases startThrows_eq_some stepped with ⟨-, rfl⟩ | ⟨inactive, rfl⟩
      · exact sound
      · obtain ⟨inv, blocks, has⟩ := sound
        have none := inv.not_running inactive
        exact ⟨inv.started none, _, has.started none⟩
  | connectNextThrows index exception =>
      obtain ⟨chain, stage, found, connected, goesOn, rfl⟩ := connectNextThrows_eq_some stepped
      have notOver : chain.stage.isOver = false := by
        rw [connected]
        rfl
      refine sound.setChain found (Advances.leave rfl rfl notOver ?_)
      rcases goesOn with rfl | rfl <;> rfl

/-- Flags, chains and notifications stay consistent, whatever `create_pipe` does. -/
theorem failing_run_sound {events : List (FailingEvent β ε)} (ran : (failingMachine β ε).run {} events = some s) :
    Sound s :=
  Machine.run_invariant (P := Sound) failingStep_sound ⟨consistent_init, [], blocks_init⟩ ran

/-! ### A start that throws -/

/-- In every state that a connector can reach, over any pipe environment: a `start` that throws leaves the
    connector as it was, and does not make it refuse a later `start`, exactly if it threw because the connector
    was running. -/
theorem failed_start_unchanged_iff {events : List (FailingEvent β ε)}
    (_ran : (failingMachine β ε).run {} events = some s) (createPipe : Option ε) {error : StartError ε}
    (threw : (s.startWith createPipe).2 = some error) :
    ((s.startWith createPipe).1.isActive = s.isActive ∧
      (s.startWith createPipe).1.connectionFutureMap = s.connectionFutureMap ∧
      (s.startWith createPipe).1.notifications = s.notifications ∧
      ∀ later : Option ε, ∀ message, ((s.startWith createPipe).1.startWith later).2 = some (.logicError message) →
        (s.startWith later).2 = some (.logicError message)) ↔
      s.isActive = true := by
  constructor
  · rintro ⟨unchanged, -⟩
    cases active : s.isActive with
    | true => rfl
    | false =>
        cases createPipe with
        | none =>
            rw [startWith_none_of_inactive active] at threw
            cases threw
        | some exception =>
            rw [startWith_some_of_inactive active, isActive_started, active] at unchanged
            exact unchanged.symm
  · intro active
    rw [startWith_of_active active]
    exact ⟨rfl, rfl, rfl, fun _ _ refused => refused⟩

/-- The connector is running, and refuses. -/
theorem failed_start_unchanged_iff_running :
    ((({} : ServerConnector Nat).startWith (none : Option Nat)).1.startWith (none : Option Nat)).1.notifications =
      [.started] := by
  have ran : (failingMachine Nat Nat).run {} [.regular .start] =
    some (({} : ServerConnector Nat).startWith (none : Option Nat)).1 := rfl
  have unchanged := (failed_start_unchanged_iff ran none rfl).mpr rfl
  exact unchanged.2.2.1

/-- A new connector whose pipe environment throws: it is active and refuses the next `start`. -/
theorem failed_start_leaves_running :
    ¬ ∀ (s : ServerConnector Nat) (events : List (FailingEvent Nat Nat)),
      (failingMachine Nat Nat).run {} events = some s → ∀ (createPipe : Option Nat) (error : StartError Nat),
        (s.startWith createPipe).2 = some error → (s.startWith createPipe).1.isActive = s.isActive := by
  intro unchanged
  exact absurd (unchanged {} [] rfl (some 0) (.createPipe 0) rfl) (by decide)

/-! ### Until the next stop -/

theorem stopImpl_of_not_running {run : Option Nat} (notRunning : s.isRunning run = false) : s.stopImpl run = s := by
  cases run with
  | none => rfl
  | some run => rw [stopImpl, if_pos (by rw [notRunning]; rfl)]

/-- A step starts runs, and the calls of `stop` that are under way have read the flag before or read it now. -/
structure KnowsStops (s t : ServerConnector β) : Prop where
  runs : s.runs.length ≤ t.runs.length
  stops : ∀ stop ∈ t.stops, stop ∈ s.stops ∨ stop = s.isRunningSp

theorem KnowsStops.of_eq (runs : t.runs.length = s.runs.length) (stops : t.stops = s.stops) : KnowsStops s t where
  runs := Nat.le_of_eq runs.symm
  stops _ member := .inl (stops ▸ member)

theorem stopImpl_stops (s : ServerConnector β) (run : Option Nat) :
    (s.stopImpl run).runs.length = s.runs.length ∧ (s.stopImpl run).stops = s.stops := by
  cases run with
  | none => exact ⟨rfl, rfl⟩
  | some run =>
      rw [stopImpl]
      split
      · exact ⟨rfl, rfl⟩
      · exact ⟨List.length_set, rfl⟩

theorem step_stops {event : Event β} (stepped : s.step event = some t) : KnowsStops s t := by
  cases event with
  | start =>
      rcases step_start stepped with ⟨-, rfl⟩ | ⟨-, rfl⟩
      · exact .of_eq rfl rfl
      · exact ⟨by simp [createPipe, started], fun _ member => .inl member⟩
  | stop =>
      cases stepped
      refine ⟨Nat.le_refl _, fun stop member => ?_⟩
      rcases List.mem_append.mp member with old | new
      · exact .inl old
      · exact .inr (List.mem_singleton.mp new)
  | stopImpl index =>
      obtain ⟨run, -, rfl⟩ := step_stopImpl stepped
      obtain ⟨runs, stops⟩ := stopImpl_stops { s with stops := s.stops.eraseIdx index } run
      refine ⟨Nat.le_of_eq runs.symm, fun stop member => .inl ?_⟩
      rw [stops] at member
      exact List.mem_of_mem_eraseIdx member
  | connectNext index =>
      obtain ⟨chain, -, -, ⟨-, rfl⟩ | ⟨-, rfl⟩⟩ := step_connectNext stepped
      · exact .of_eq rfl rfl
      · exact .of_eq rfl rfl
  | refuse index =>
      obtain ⟨chain, -, -, rfl⟩ := onChain_eq_some.mp stepped
      obtain ⟨runs, stops⟩ := stopImpl_stops (s.setChain index { chain with stage := .finished }) (some chain.run)
      exact .of_eq runs stops
  | pipeResult | readCompletes | writeCompletes | notifyOnNewConnection | eraseConnectionFutureFromMap =>
      obtain ⟨chain, -, -, rfl⟩ := onChain_eq_some.mp stepped
      exact .of_eq rfl rfl

theorem failingStep_stops {event : FailingEvent β ε} (stepped : s.failingStep event = some t) : KnowsStops s t := by
  cases event with
  | regular event => exact step_stops stepped
  | startThrows exception =>
      rcases startThrows_eq_some stepped with ⟨-, rfl⟩ | ⟨-, rfl⟩
      · exact .of_eq rfl rfl
      · exact ⟨by simp [started], fun _ member => .inl member⟩
  | connectNextThrows index exception =>
      obtain ⟨chain, stage, -, -, -, rfl⟩ := connectNextThrows_eq_some stepped
      exact .of_eq rfl rfl

/-- No call of `stop` that is under way knows of a run that has not begun. -/
theorem stops_known {events : List (FailingEvent β ε)} {run : Nat}
    (ran : (failingMachine β ε).run {} events = some s)
    (underWay : some run ∈ s.stops) : run < s.runs.length := by
  revert run
  refine Machine.run_induction (P := fun _ s => ∀ {run : Nat}, some run ∈ s.stops → run < s.runs.length) ?_ ?_ ran
  · intro run underWay
    cases underWay
  · intro events a event b reached known stepped run underWay
    have knows := failingStep_stops stepped
    rcases knows.stops _ underWay with old | now
    · exact Nat.lt_of_lt_of_le (known old) knows.runs
    · have latest := (failing_run_sound reached).1.current run now.symm
      have runs := knows.runs
      omega

/-- The connector runs, but nothing of the run will ever ask for a pipe or end it. -/
structure Deaf (s : ServerConnector β) (run : Nat) : Prop where
  current : s.isRunningSp = some run
  noChain : ∀ chain ∈ s.chains, chain.run ≠ run
  noStop : some run ∉ s.stops

namespace Deaf

variable {run : Nat}

theorem isActive (inv : Consistent s) (deaf : Deaf s run) : s.isActive = true := by
  rw [ServerConnector.isActive, deaf.current]
  exact (inv.flags run).mpr deaf.current

/-- The flag of another run is not set. -/
theorem not_running (inv : Consistent s) (deaf : Deaf s run) {other : Option Nat} (apart : other ≠ some run) :
    s.isRunning other = false := by
  cases other with
  | none => rfl
  | some other =>
      rw [← Bool.not_eq_true, inv.flags other, deaf.current]
      exact Ne.symm apart

theorem chain_not_running (inv : Consistent s) (deaf : Deaf s run) {index : Nat} {chain : ConnectChain β}
    (found : s.chains[index]? = some chain) : s.isRunning (some chain.run) = false :=
  deaf.not_running inv fun same => deaf.noChain chain (List.mem_of_getElem? found) (Option.some.inj same)

theorem setChain (deaf : Deaf s run) {index : Nat} {chain : ConnectChain β} (found : s.chains[index]? = some chain)
    (chain' : ConnectChain β) (same : chain'.run = chain.run) : Deaf (s.setChain index chain') run where
  current := deaf.current
  noChain := by
    apply Table.forall_set deaf.noChain
    rw [same]
    exact deaf.noChain chain (List.mem_of_getElem? found)
  noStop := deaf.noStop

theorem startWith_eq (inv : Consistent s) (deaf : Deaf s run) (createPipe : Option ε) :
    s.startWith createPipe = (s, some (.logicError "server connector already running")) :=
  startWith_of_active (deaf.isActive inv) createPipe

theorem step (inv : Consistent s) (deaf : Deaf s run) {event : Event β} (notStop : event ≠ .stop)
    (stepped : s.step event = some t) : Deaf t run := by
  cases event with
  | start =>
      rcases step_start stepped with ⟨-, rfl⟩ | ⟨inactive, -⟩
      · exact deaf
      · rw [deaf.isActive inv] at inactive
        cases inactive
  | stop => exact absurd rfl notStop
  | stopImpl index =>
      obtain ⟨other, found, rfl⟩ := step_stopImpl stepped
      have apart : other ≠ some run := by
        rintro rfl
        exact deaf.noStop (List.mem_of_getElem? found)
      have notRunning : { s with stops := s.stops.eraseIdx index }.isRunning other = false :=
        deaf.not_running inv apart
      rw [stopImpl_of_not_running notRunning]
      exact { deaf with noStop := fun member => deaf.noStop (List.mem_of_mem_eraseIdx member) }
  | pipeResult index pipe =>
      obtain ⟨chain, found, -, rfl⟩ := onChain_eq_some.mp stepped
      exact deaf.setChain found _ rfl
  | connectNext index =>
      obtain ⟨chain, found, -, ⟨-, rfl⟩ | ⟨running, -⟩⟩ := step_connectNext stepped
      · exact deaf.setChain found _ rfl
      · rw [deaf.chain_not_running inv found] at running
        cases running
  | refuse index =>
      obtain ⟨chain, found, -, rfl⟩ := onChain_eq_some.mp stepped
      have notRunning : (s.setChain index { chain with stage := .finished }).isRunning (some chain.run) = false :=
        deaf.chain_not_running inv found
      rw [stopImpl_of_not_running notRunning]
      exact deaf.setChain found _ rfl
  | readCompletes index res request accepted response =>
      obtain ⟨chain, found, reading, rfl⟩ := onChain_eq_some.mp stepped
      exact deaf.setChain found _ (readCompletes_advances reading).run
  | writeCompletes index res serviceThrows =>
      obtain ⟨chain, found, writing, rfl⟩ := onChain_eq_some.mp stepped
      exact deaf.setChain found _ (writeCompletes_advances writing).run
  | notifyOnNewConnection index =>
      obtain ⟨chain, found, -, rfl⟩ := onChain_eq_some.mp stepped
      exact { deaf.setChain found { chain with stage := .finishing } rfl with }
  | eraseConnectionFutureFromMap index =>
      obtain ⟨chain, found, -, rfl⟩ := onChain_eq_some.mp stepped
      exact { deaf.setChain found { chain with stage := .finished } rfl with }

theorem failingStep (inv : Consistent s) (deaf : Deaf s run) {event : FailingEvent β ε}
    (notStop : event ≠ .regular .stop) (stepped : s.failingStep event = some t) : Deaf t run := by
  cases event with
  | regular event => exact deaf.step inv (fun same => notStop (congrArg _ same)) stepped
  | startThrows exception =>
      rcases startThrows_eq_some stepped with ⟨-, rfl⟩ | ⟨inactive, -⟩
      · exact deaf
      · rw [deaf.isActive inv] at inactive
        cases inactive
  | connectNextThrows index exception =>
      obtain ⟨chain, stage, found, -, -, rfl⟩ := connectNextThrows_eq_some stepped
      exact deaf.setChain found _ rfl

end Deaf

/-- After a `start` that threw because of `create_pipe`, and until somebody calls `stop`, the connector is active,
    refuses to be started, and has no chain that waits for a pipe of the run, whatever else happens. -/
theorem failed_start_keeps_listening {events later : List (FailingEvent β ε)} {exception : ε}
    (ran : (failingMachine β ε).run {} events = some s) (inactive : s.isActive = false)
    (ran' : (failingMachine β ε).run (s.startWith (some exception)).1 later = some t)
    (noStop : .regular .stop ∉ later) :
    t.isActive = true ∧
    (∀ createPipe : Option ε,
      t.startWith createPipe = (t, some (.logicError "server connector already running"))) ∧
    ∀ chain ∈ t.chains, chain.run ≠ s.runs.length := by
  obtain ⟨inv, -⟩ := failing_run_sound ran
  have begun : Deaf s.started s.runs.length :=
    { current := rfl
      noChain := fun chain member => Nat.ne_of_lt (inv.made chain member)
      noStop := fun underWay => Nat.lt_irrefl _ (stops_known ran underWay) }
  rw [startWith_some_of_inactive inactive] at ran'
  have first : (failingMachine β ε).run {} (events ++ [.startThrows exception]) = some s.started := by
    refine Machine.run_append_eq_some.mpr ⟨s, ran, ?_⟩
    simp [Machine.run_cons, failingMachine, ServerConnector.failingStep, startWith_some_of_inactive inactive]
  have reached : (failingMachine β ε).run {} ((events ++ [.startThrows exception]) ++ later) = some t :=
    Machine.run_append_eq_some.mpr ⟨s.started, first, ran'⟩
  have deaf : Deaf t s.runs.length := by
    revert noStop
    refine Machine.run_induction
      (P := fun later t => FailingEvent.regular Event.stop ∉ later → Deaf t s.runs.length) ?_ ?_ ran'
    · intro _
      exact begun
    · intro later a event b reached ih stepped noStop
      have before := ih fun member => noStop (List.mem_append_left _ member)
      have known := (failing_run_sound (Machine.run_append_eq_some.mpr ⟨s.started, first, reached⟩)).1
      refine before.failingStep known ?_ stepped
      rintro rfl
      exact noStop (List.mem_append_right _ (.head _))
  have inv' := (failing_run_sound reached).1
  exact ⟨deaf.isActive inv', deaf.startWith_eq inv', deaf.noChain⟩

end CommonRpc.ServerConnector
