/-
Module: CommonRpc.Proofs.ServerConnector
Purpose: The runs of `server_connector` over every interleaving of start, stop and the chains of all runs. A flag
  is true exactly while it is the current one, so a chain of an older run can neither publish nor stop anything
  (`Consistent`); the notifications are then one block for each run, the last one still open while the
  connector runs (`Blocks`).
Trusted boundary: none
-/
import CommonRpc.Core.ServerConnector
import CommonRpc.Lib.Table
import Mathlib.Data.List.Nodup

namespace CommonRpc

universe u

/-- The chain has not yet handed its pipe to a handshake, so no other chain of its run was started after it. -/
def ConnectStage.waitsForPipe : ConnectStage → Bool
  | .creating | .connected => true
  | _ => false

/-- The chain has nothing left to publish. -/
def ConnectStage.isOver : ConnectStage → Bool
  | .finishing | .finished => true
  | _ => false

namespace ServerConnector

open Lib

variable {β : Type u} {s t : ServerConnector β}

/-! ### Flags, ids and the frontier of a run -/

structure Consistent (s : ServerConnector β) : Prop where
  /-- Only the current flag is true. -/
  flags : ∀ run, s.isRunning (some run) = true ↔ s.isRunningSp = some run
  current : ∀ run, s.isRunningSp = some run → run + 1 = s.runs.length
  ids : ∀ (index : Nat) (chain : ConnectChain β), s.chains[index]? = some chain → chain.connectionId = index
  next : s.nextConnectionId = s.chains.length
  made : ∀ chain ∈ s.chains, chain.run < s.runs.length
  /-- One chain of a run at most waits for a pipe. -/
  frontier : ∀ (i j : Nat) (first second : ConnectChain β), s.chains[i]? = some first →
    s.chains[j]? = some second → first.run = second.run → first.stage.waitsForPipe = true →
    second.stage.waitsForPipe = true → i = j
  stopped : s.isRunningSp = none → s.connectionFutureMap = []

theorem consistent_init : Consistent ({} : ServerConnector β) := by
  constructor <;> simp [isRunning]

/-- What a step of a chain keeps. -/
structure Advances (chain chain' : ConnectChain β) : Prop where
  id : chain'.connectionId = chain.connectionId
  run : chain'.run = chain.run
  waited : chain'.stage.waitsForPipe = true → chain.stage.waitsForPipe = true
  ended : chain.stage.isOver = true → chain'.pipe = chain.pipe ∧ chain'.stage.isOver = true

/-- A chain takes a step of its own. -/
theorem Consistent.setChain (inv : Consistent s) {index : Nat} {chain chain' : ConnectChain β}
    (found : s.chains[index]? = some chain) (advances : Advances chain chain') :
    Consistent (s.setChain index chain') := by
  -- what waits now waited before, in the same place and for the same run
  have waits {other : Nat} {now : ConnectChain β} (after : (s.chains.set index chain')[other]? = some now)
      (waiting : now.stage.waitsForPipe = true) :
      ∃ before, s.chains[other]? = some before ∧ before.run = now.run ∧ before.stage.waitsForPipe = true := by
    rcases Table.set_cases found after with ⟨rfl, rfl⟩ | ⟨_, old⟩
    · exact ⟨chain, found, advances.run.symm, advances.waited waiting⟩
    · exact ⟨now, old, rfl, waiting⟩
  refine { inv with ids := ?_, next := ?_, made := ?_, frontier := ?_ }
  · intro other now after
    rcases Table.set_cases found after with ⟨rfl, rfl⟩ | ⟨_, old⟩
    · exact advances.id.trans (inv.ids _ chain found)
    · exact inv.ids other now old
  · simpa [ServerConnector.setChain] using inv.next
  · apply Table.forall_set inv.made
    rw [advances.run]
    exact inv.made chain (List.mem_of_getElem? found)
  · intro i j first second atI atJ same firstWaits secondWaits
    obtain ⟨first', oldFirst, firstRun, firstWaited⟩ := waits atI firstWaits
    obtain ⟨second', oldSecond, secondRun, secondWaited⟩ := waits atJ secondWaits
    exact inv.frontier i j first' second' oldFirst oldSecond (firstRun.trans (same.trans secondRun.symm))
      firstWaited secondWaited

/-- A chain that is not over may go on in any way that does not make it wait for a pipe again. -/
theorem Advances.leave {chain chain' : ConnectChain β} (id : chain'.connectionId = chain.connectionId)
    (run : chain'.run = chain.run) (notOver : chain.stage.isOver = false)
    (goesOn : chain'.stage.waitsForPipe = false) : Advances chain chain' where
  id := id
  run := run
  waited := by
    intro waits
    rw [goesOn] at waits
    cases waits
  ended := by
    intro isOver
    rw [notOver] at isOver
    cases isOver

/-- The current run asks for its next pipe, when none of its chains waits for one. -/
theorem Consistent.createPipe (inv : Consistent s) {run : Nat} (running : s.isRunningSp = some run)
    (idle : ∀ chain ∈ s.chains, chain.run = run → chain.stage.waitsForPipe = false) :
    Consistent (s.createPipe run) := by
  have notIdle {other : Nat} {chain : ConnectChain β} {P : Prop} (found : s.chains[other]? = some chain)
      (own : chain.run = run) (waits : chain.stage.waitsForPipe = true) : P := by
    rw [idle chain (List.mem_of_getElem? found) own] at waits
    cases waits
  refine { inv with ids := ?_, next := ?_, made := ?_, frontier := ?_, stopped := ?_ }
  · intro other chain after
    rcases Table.push_cases after with old | ⟨rfl, rfl⟩
    · exact inv.ids other chain old
    · exact inv.next
  · simp [ServerConnector.createPipe, inv.next]
  · intro chain member
    rcases List.mem_append.mp member with old | new
    · exact inv.made chain old
    · rw [List.mem_singleton.mp new]
      exact (inv.current run running) ▸ Nat.lt_succ_self run
  · intro i j first second atI atJ same firstWaits secondWaits
    rcases Table.push_cases atI with oldFirst | ⟨rfl, rfl⟩ <;>
      rcases Table.push_cases atJ with oldSecond | ⟨rfl, rfl⟩
    · exact inv.frontier i j first second oldFirst oldSecond same firstWaits secondWaits
    · exact notIdle oldFirst same firstWaits
    · exact notIdle oldSecond same.symm secondWaits
    · rfl
  · intro none
    exact absurd (running.symm.trans none) (by simp)

/-- `start` in a connector that does not run, up to the first `create_pipe`. -/
def started (s : ServerConnector β) : ServerConnector β :=
  { s with
    notifications := s.notifications ++ [.started]
    runs := s.runs ++ [true]
    isRunningSp := some s.runs.length }

theorem Consistent.not_running (inv : Consistent s) (inactive : s.isActive = false) : s.isRunningSp = none := by
  cases running : s.isRunningSp with
  | none => rfl
  | some run =>
      have active := (inv.flags run).mpr running
      rw [isActive, running, active] at inactive
      cases inactive

theorem Consistent.flag_false (inv : Consistent s) (none : s.isRunningSp = none) (run : Nat) :
    s.runs.getD run false = false := by
  have flag := inv.flags run
  rw [none] at flag
  simpa [isRunning] using flag

theorem Consistent.started (inv : Consistent s) (none : s.isRunningSp = none) : Consistent s.started := by
  refine { inv with flags := ?_, current := ?_, made := ?_, stopped := ?_ }
  · intro run
    have flag := inv.flag_false none run
    rw [List.getD_eq_getElem?_getD] at flag
    simp only [ServerConnector.started, isRunning, Option.any_some, List.getD_eq_getElem?_getD, Option.some.injEq]
    rcases Nat.lt_trichotomy run s.runs.length with old | new | beyond
    · rw [List.getElem?_append_left old, flag]
      simp [Nat.ne_of_gt old]
    · simp [new]
    · rw [List.getElem?_eq_none (by rw [List.length_append]; exact beyond)]
      simp [Nat.ne_of_lt beyond]
  · intro run running
    cases running
    simp [ServerConnector.started]
  · intro chain member
    simp only [ServerConnector.started, List.length_append]
    exact Nat.lt_succ_of_lt (inv.made chain member)
  · intro none
    cases none

theorem Consistent.stopImpl (inv : Consistent s) (run : Option Nat) : Consistent (s.stopImpl run) := by
  cases run with
  | none => exact inv
  | some run =>
      simp only [ServerConnector.stopImpl]
      split
      · exact inv
      · rename_i running
        have isCurrent := (inv.flags run).mp (by simpa using running)
        refine { inv with flags := ?_, current := ?_, made := ?_, stopped := fun _ => rfl }
        · intro other
          -- the only flag that was true is the one that is cleared
          have flag := inv.flags other
          simp only [isRunning, Option.any_some, List.getD_eq_getElem?_getD, List.getElem?_set] at flag ⊢
          rw [isCurrent] at flag
          by_cases same : run = other
          · subst same
            simp only [if_true]
            split <;> simp
          · simp only [same, if_false]
            simpa [same] using flag
        · intro other none
          cases none
        · intro chain member
          simpa using inv.made chain member

/-! ### One block of notifications for each run -/

/-- The notifications of new connections, each given by its id and its pipe. -/
def announced (connections : List (Nat × Nat)) : List Notification :=
  connections.map fun connection => .newConnection connection.1 connection.2

/-- The notifications of a run that is over. -/
def block (connections : List (Nat × Nat)) : List Notification :=
  .started :: announced connections ++ [.stopped]

/-- The connections that the runs have published, run by run. -/
structure Blocks (s : ServerConnector β) (blocks : List (List (Nat × Nat))) : Prop where
  perRun : blocks.length = s.runs.length
  /-- A published connection is that of a chain of its run, with the pipe of the chain. -/
  own : ∀ (run : Nat) connections, blocks[run]? = some connections → ∀ connection ∈ connections,
    ∃ chain, s.chains[connection.1]? = some chain ∧ chain.run = run ∧ chain.pipe = some connection.2 ∧
      chain.stage.isOver = true
  once : (blocks.flatten.map Prod.fst).Nodup
  closed : s.isRunningSp = none → s.notifications = (blocks.map block).flatten
  opened : ∀ run, s.isRunningSp = some run → ∃ before connections, blocks = before ++ [connections] ∧
    s.notifications = (before.map block).flatten ++ .started :: announced connections

theorem blocks_init : Blocks ({} : ServerConnector β) [] := by
  constructor <;> simp

variable {blocks : List (List (Nat × Nat))}

/-- The blocks depend on the runs, the notifications and the chains that are over. -/
theorem Blocks.frame (has : Blocks s blocks) (runs : t.runs = s.runs) (current : t.isRunningSp = s.isRunningSp)
    (notifications : t.notifications = s.notifications)
    (kept : ∀ (index : Nat) (chain : ConnectChain β), s.chains[index]? = some chain → chain.stage.isOver = true →
      ∃ chain', t.chains[index]? = some chain' ∧ chain'.run = chain.run ∧ chain'.pipe = chain.pipe ∧
        chain'.stage.isOver = true) : Blocks t blocks where
  perRun := runs ▸ has.perRun
  own := by
    intro run connections atRun connection member
    obtain ⟨chain, found, own, pipe, isOver⟩ := has.own run connections atRun connection member
    obtain ⟨chain', found', own', pipe', isOver'⟩ := kept connection.1 chain found isOver
    exact ⟨chain', found', own'.trans own, pipe'.trans pipe, isOver'⟩
  once := has.once
  closed := by
    rw [current, notifications]
    exact has.closed
  opened := by
    rw [current, notifications]
    exact has.opened

/-- A chain that is over stays over when another takes a step, or when it takes its last one. -/
theorem over_setChain {index : Nat} {chain chain' : ConnectChain β} (found : s.chains[index]? = some chain)
    (advances : Advances chain chain') (other : Nat) (now : ConnectChain β)
    (atOther : s.chains[other]? = some now) (isOver : now.stage.isOver = true) :
    ∃ after, (s.chains.set index chain')[other]? = some after ∧ after.run = now.run ∧ after.pipe = now.pipe ∧
      after.stage.isOver = true := by
  by_cases same : index = other
  · subst same
    obtain rfl : chain = now := Option.some.inj (found.symm.trans atOther)
    exact ⟨chain', Table.set_self found, advances.run, advances.ended isOver⟩
  · exact ⟨now, (List.getElem?_set_ne same).trans atOther, rfl, rfl, isOver⟩

theorem Blocks.setChain (has : Blocks s blocks) {index : Nat} {chain chain' : ConnectChain β}
    (found : s.chains[index]? = some chain) (advances : Advances chain chain') :
    Blocks (s.setChain index chain') blocks :=
  has.frame rfl rfl rfl (over_setChain found advances)

theorem Blocks.createPipe (has : Blocks s blocks) (run : Nat) : Blocks (s.createPipe run) blocks := by
  refine has.frame (t := s.createPipe run) rfl rfl rfl ?_
  intro index chain found isOver
  exact ⟨chain, Table.push_old found, rfl, rfl, isOver⟩

/-- A new run opens a block. -/
theorem Blocks.started (has : Blocks s blocks) (none : s.isRunningSp = none) :
    Blocks s.started (blocks ++ [[]]) where
  perRun := by simp [ServerConnector.started, has.perRun]
  own := by
    intro run connections atRun connection member
    rcases Table.push_cases atRun with old | ⟨_, rfl⟩
    · exact has.own run connections old connection member
    · cases member
  once := by simpa using has.once
  closed := by
    intro none
    cases none
  opened := by
    intro run _
    refine ⟨blocks, [], rfl, ?_⟩
    simp [ServerConnector.started, has.closed none, announced]

/-- A stop closes the block of its run. -/
theorem Blocks.stopImpl (inv : Consistent s) (has : Blocks s blocks) (run : Option Nat) :
    Blocks (s.stopImpl run) blocks := by
  cases run with
  | none => exact has
  | some run =>
      simp only [ServerConnector.stopImpl]
      split
      · exact has
      · rename_i running
        have isCurrent := (inv.flags run).mp (by simpa using running)
        obtain ⟨before, connections, rfl, notifications⟩ := has.opened run isCurrent
        refine { has with perRun := ?_, closed := ?_, opened := ?_ }
        · simpa using has.perRun
        · intro _
          simp [notifications, block]
        · intro other none
          cases none

/-- The chain of the current run announces its connection in the open block. -/
theorem Blocks.publish (inv : Consistent s) (has : Blocks s blocks) {index pipe : Nat} {chain : ConnectChain β}
    (found : s.chains[index]? = some chain) (established : chain.stage = .established)
    (isPipe : chain.pipe = some pipe) (running : s.isRunningSp = some chain.run) :
    ∃ blocks', Blocks { s.setChain index { chain with stage := .finishing } with
      notifications := s.notifications ++ [.newConnection chain.connectionId pipe] } blocks' := by
  obtain ⟨before, connections, rfl, notifications⟩ := has.opened chain.run running
  have isId : chain.connectionId = index := inv.ids index chain found
  have advances : Advances chain { chain with stage := .finishing } :=
    Advances.leave rfl rfl (by simp [established, ConnectStage.isOver]) (by simp [ConnectStage.waitsForPipe])
  have kept := over_setChain found advances
  have last : before.length = chain.run := by
    have count := has.perRun
    rw [← inv.current chain.run running, List.length_append] at count
    exact Nat.succ.inj count
  refine ⟨before ++ [connections ++ [(chain.connectionId, pipe)]], ?_⟩
  constructor
  case perRun => simpa [ServerConnector.setChain] using has.perRun
  case own =>
    intro run announcedNow atRun connection member
    have ofOld (old : ∃ connections', (before ++ [connections])[run]? = some connections' ∧
        connection ∈ connections') :
        ∃ after, (s.chains.set index { chain with stage := .finishing })[connection.1]? = some after ∧
          after.run = run ∧ after.pipe = some connection.2 ∧ after.stage.isOver = true := by
      obtain ⟨connections', atOld, oldMember⟩ := old
      obtain ⟨now, atNow, own, ownPipe, isOver⟩ := has.own run connections' atOld connection oldMember
      obtain ⟨after, atAfter, afterRun, afterPipe, afterOver⟩ := kept connection.1 now atNow isOver
      exact ⟨after, atAfter, afterRun.trans own, afterPipe.trans ownPipe, afterOver⟩
    rcases Table.push_cases atRun with older | ⟨newest, rfl⟩
    · exact ofOld ⟨announcedNow, Table.push_old older, member⟩
    · rcases List.mem_append.mp member with old | new
      · exact ofOld ⟨connections, by rw [newest, List.getElem?_concat_length], old⟩
      · rw [List.mem_singleton.mp new, isId]
        exact ⟨_, Table.set_self found, last.symm.trans newest.symm, isPipe, rfl⟩
  case once =>
    have unpublished : chain.connectionId ∉ (before ++ [connections]).flatten.map Prod.fst := by
      -- a published chain is over, and this one is not
      intro published
      obtain ⟨connection, inFlat, same⟩ := List.mem_map.mp published
      obtain ⟨connections', inBlocks, member⟩ := List.mem_flatten.mp inFlat
      obtain ⟨run, atRun⟩ := List.mem_iff_getElem?.mp inBlocks
      obtain ⟨now, atNow, _, _, isOver⟩ := has.own run connections' atRun connection member
      rw [same, isId, found] at atNow
      cases atNow
      rw [established] at isOver
      cases isOver
    have flat : (before ++ [connections ++ [(chain.connectionId, pipe)]]).flatten.map Prod.fst =
        (before ++ [connections]).flatten.map Prod.fst ++ [chain.connectionId] := by simp
    rw [flat, List.nodup_append]
    refine ⟨has.once, List.nodup_singleton _, ?_⟩
    intro id published other isThis same
    exact unpublished (List.mem_singleton.mp isThis ▸ same ▸ published)
  case closed =>
    intro none
    exact absurd (running.symm.trans none) (by simp)
  case opened =>
    intro _ _
    refine ⟨before, _, rfl, ?_⟩
    simp [notifications, announced]

/-! ### Every step and every run -/

theorem onChain_eq_some {index : Nat} {stage : ConnectStage} {next : ConnectChain β → ServerConnector β} :
    s.onChain index stage next = some t ↔
      ∃ chain, s.chains[index]? = some chain ∧ chain.stage = stage ∧ next chain = t := by
  simp only [onChain]
  split
  · simp [*]
  · simp [*]

/-- `start` throws in a connector that runs, and changes nothing. -/
theorem step_start (stepped : s.step .start = some t) :
    s.isActive = true ∧ t = s ∨ s.isActive = false ∧ t = s.started.createPipe s.runs.length := by
  simp only [step, start, startPipeConnect, if_true] at stepped
  by_cases active : s.isActive = true
  · rw [if_pos active] at stepped
    exact .inl ⟨active, (Option.some.inj stepped).symm⟩
  · rw [if_neg active] at stepped
    exact .inr ⟨by simpa using active, (Option.some.inj stepped).symm⟩

theorem step_stopImpl {index : Nat} (stepped : s.step (.stopImpl index) = some t) :
    ∃ run, s.stops[index]? = some run ∧ t = { s with stops := s.stops.eraseIdx index }.stopImpl run := by
  simp only [step] at stepped
  split at stepped
  · cases stepped
  · rename_i run found
    exact ⟨run, found, (Option.some.inj stepped).symm⟩

/-- The chain that got its pipe asks for the next one of its run, if the run is the current one. -/
theorem step_connectNext {index : Nat} (stepped : s.step (.connectNext index) = some t) :
    ∃ chain, s.chains[index]? = some chain ∧ chain.stage = .connected ∧
      (s.isRunning (some chain.run) = false ∧ t = s.setChain index { chain with stage := .reading } ∨
        s.isRunning (some chain.run) = true ∧
          t = (s.setChain index { chain with stage := .reading }).createPipe chain.run) := by
  obtain ⟨chain, found, connected, rfl⟩ := onChain_eq_some.mp stepped
  refine ⟨chain, found, connected, ?_⟩
  have same : (s.setChain index { chain with stage := .reading }).isRunning (some chain.run) =
    s.isRunning (some chain.run) := rfl
  cases running : s.isRunning (some chain.run) with
  | false =>
      left
      simp [startPipeConnect, same, running]
  | true =>
      right
      simp [startPipeConnect, same, running]

/-- Both invariants, with the blocks left open. -/
def Sound (s : ServerConnector β) : Prop :=
  Consistent s ∧ ∃ blocks, Blocks s blocks

theorem Sound.setChain (sound : Sound s) {index : Nat} {chain chain' : ConnectChain β}
    (found : s.chains[index]? = some chain) (advances : Advances chain chain') :
    Sound (s.setChain index chain') := by
  obtain ⟨inv, blocks, has⟩ := sound
  exact ⟨inv.setChain found advances, blocks, has.setChain found advances⟩

theorem Sound.stopImpl (sound : Sound s) (run : Option Nat) : Sound (s.stopImpl run) := by
  obtain ⟨inv, blocks, has⟩ := sound
  exact ⟨inv.stopImpl run, blocks, has.stopImpl inv run⟩

/-- No chain of a run that has just begun waits for a pipe: there is none. -/
theorem Sound.start (sound : Sound s) (inactive : s.isActive = false) :
    Sound (s.started.createPipe s.runs.length) := by
  obtain ⟨inv, blocks, has⟩ := sound
  have none := inv.not_running inactive
  refine ⟨(inv.started none).createPipe rfl ?_, _, (has.started none).createPipe _⟩
  intro chain member own
  exact absurd own (Nat.ne_of_lt (inv.made chain member))

theorem Sound.connectNext (sound : Sound s) {index : Nat} (stepped : s.step (.connectNext index) = some t) :
    Sound t := by
  obtain ⟨chain, found, connected, next⟩ := step_connectNext stepped
  have reading : Sound (s.setChain index { chain with stage := .reading }) :=
    sound.setChain found (Advances.leave rfl rfl (by rw [connected]; rfl) rfl)
  rcases next with ⟨-, rfl⟩ | ⟨running, rfl⟩
  · exact reading
  · obtain ⟨inv, blocks, has⟩ := reading
    refine ⟨inv.createPipe ((inv.flags _).mp running) ?_, blocks, has.createPipe _⟩
    -- of this run only the chain itself waited, and now it reads
    intro other member own
    obtain ⟨place, atPlace⟩ := List.mem_iff_getElem?.mp member
    rcases Table.set_cases found atPlace with ⟨_, rfl⟩ | ⟨elsewhere, old⟩
    · rfl
    · cases waits : other.stage.waitsForPipe with
      | false => rfl
      | true =>
          have chainWaits : chain.stage.waitsForPipe = true := by rw [connected]; rfl
          exact absurd (sound.1.frontier place index other chain old found own waits chainWaits) elsewhere

theorem Sound.notify (sound : Sound s) {index : Nat} {chain : ConnectChain β}
    (found : s.chains[index]? = some chain) (established : chain.stage = .established) :
    Sound { s.setChain index { chain with stage := .finishing } with
      notifications :=
        if s.isRunning (some chain.run) then s.notifications ++ announcement chain
        else s.notifications } := by
  have finishing : Sound (s.setChain index { chain with stage := .finishing }) :=
    sound.setChain found (Advances.leave rfl rfl (by rw [established]; rfl) rfl)
  obtain ⟨inv, blocks, has⟩ := sound
  split
  · rename_i running
    rcases Option.eq_none_or_eq_some chain.pipe with noPipe | ⟨pipe, isPipe⟩
    · have nothing : announcement chain = [] := by simp [announcement, noPipe]
      rw [nothing, List.append_nil]
      exact finishing
    · have connection : announcement chain = [.newConnection chain.connectionId pipe] := by
        simp [announcement, isPipe]
      rw [connection]
      obtain ⟨blocks', published⟩ := has.publish inv found established isPipe ((inv.flags _).mp running)
      exact ⟨{ finishing.1 with }, blocks', published⟩
  · exact finishing

theorem readCompletes_advances {chain : ConnectChain β} {res : PipeOpRes} {request response : β} {accepted : Bool}
    (reading : chain.stage = .reading) :
    Advances chain (readCompletes chain res request accepted response) := by
  have notOver : chain.stage.isOver = false := by rw [reading]; rfl
  simp only [readCompletes]
  split
  · exact Advances.leave rfl rfl notOver rfl
  · split
    · exact Advances.leave rfl rfl notOver rfl
    · exact Advances.leave rfl rfl notOver rfl

theorem writeCompletes_advances {chain : ConnectChain β} {res : PipeOpRes} {serviceThrows : Bool}
    (writing : chain.stage = .writing) : Advances chain (writeCompletes chain res serviceThrows) := by
  have notOver : chain.stage.isOver = false := by rw [writing]; rfl
  simp only [writeCompletes]
  split
  · exact Advances.leave rfl rfl notOver rfl
  · split
    · exact Advances.leave rfl rfl notOver rfl
    · exact Advances.leave rfl rfl notOver rfl

theorem step_sound {e : Event β} (sound : Sound s) (stepped : s.step e = some t) : Sound t := by
  cases e with
  | start =>
      rcases step_start stepped with ⟨-, rfl⟩ | ⟨inactive, rfl⟩
      · exact sound
      · exact sound.start inactive
  | stop =>
      cases stepped
      exact ⟨{ sound.1 with }, sound.2.imp fun _ has => { has with }⟩
  | stopImpl index =>
      obtain ⟨run, -, rfl⟩ := step_stopImpl stepped
      apply Sound.stopImpl
      exact ⟨{ sound.1 with }, sound.2.imp fun _ has => { has with }⟩
  | pipeResult index pipe =>
      obtain ⟨chain, found, creating, rfl⟩ := onChain_eq_some.mp stepped
      have advances : Advances chain
          { chain with stage := if pipe.isSome then .connected else .refused, pipe := pipe } :=
        ⟨rfl, rfl, fun _ => by rw [creating]; rfl, fun isOver => by rw [creating] at isOver; cases isOver⟩
      exact sound.setChain found advances
  | connectNext index => exact sound.connectNext stepped
  | refuse index =>
      obtain ⟨chain, found, refused, rfl⟩ := onChain_eq_some.mp stepped
      have advances : Advances chain { chain with stage := .finished } :=
        Advances.leave rfl rfl (by rw [refused]; rfl) rfl
      exact (sound.setChain found advances).stopImpl _
  | readCompletes index res request accepted response =>
      obtain ⟨chain, found, reading, rfl⟩ := onChain_eq_some.mp stepped
      exact sound.setChain found (readCompletes_advances reading)
  | writeCompletes index res serviceThrows =>
      obtain ⟨chain, found, writing, rfl⟩ := onChain_eq_some.mp stepped
      exact sound.setChain found (writeCompletes_advances writing)
  | notifyOnNewConnection index =>
      obtain ⟨chain, found, established, rfl⟩ := onChain_eq_some.mp stepped
      exact sound.notify found established
  | eraseConnectionFutureFromMap index =>
      obtain ⟨chain, found, finishing, rfl⟩ := onChain_eq_some.mp stepped
      have advances : Advances chain { chain with stage := .finished } :=
        ⟨rfl, rfl, nofun, fun _ => ⟨rfl, rfl⟩⟩
      have finished := sound.setChain found advances
      refine ⟨{ finished.1 with stopped := ?_ }, finished.2.imp fun _ has => { has with }⟩
      intro none
      have empty : s.connectionFutureMap = [] := sound.1.stopped none
      simp [empty]

theorem run_sound {es : List (Event β)} (ran : (machine β).run {} es = some s) : Sound s :=
  Machine.run_invariant (P := Sound) step_sound ⟨consistent_init, [], blocks_init⟩ ran

/-- The steps of a handshake: a read or a write ends, and the chain is wound up. -/
def Event.isHandshake : Event β → Bool
  | .readCompletes .. | .writeCompletes .. | .eraseConnectionFutureFromMap _ => true
  | _ => false

theorem step_handshake {e : Event β} (stepped : s.step e = some t) (handshake : e.isHandshake = true) :
    t.isRunningSp = s.isRunningSp ∧ t.runs = s.runs ∧ t.notifications = s.notifications := by
  cases e with
  | readCompletes index res request accepted response =>
      obtain ⟨chain, _, _, rfl⟩ := onChain_eq_some.mp stepped
      exact ⟨rfl, rfl, rfl⟩
  | writeCompletes index res serviceThrows =>
      obtain ⟨chain, _, _, rfl⟩ := onChain_eq_some.mp stepped
      exact ⟨rfl, rfl, rfl⟩
  | eraseConnectionFutureFromMap index =>
      obtain ⟨chain, _, _, rfl⟩ := onChain_eq_some.mp stepped
      exact ⟨rfl, rfl, rfl⟩
  | _ => cases handshake

/-- The event stops the current run: `stop_impl` is called by `stop`, or by a chain that got no pipe. -/
def Stops (s : ServerConnector β) : Event β → Prop
  | .stopImpl index => s.stops[index]? = some s.isRunningSp
  | .refuse index => ∃ chain, s.chains[index]? = some chain ∧ s.isRunningSp = some chain.run
  | _ => False

theorem isRunningSp_stopImpl (run : Option Nat) :
    (s.stopImpl run).isRunningSp = s.isRunningSp ∨ (s.stopImpl run).isRunningSp = none := by
  cases run with
  | none => exact .inl rfl
  | some run =>
      simp only [stopImpl]
      split
      · exact .inl rfl
      · exact .inr rfl

theorem Consistent.stopImpl_current (inv : Consistent s) : (s.stopImpl s.isRunningSp).isRunningSp = none := by
  cases running : s.isRunningSp with
  | none => exact running
  | some run =>
      have active : s.isRunning (some run) = true := (inv.flags run).mpr running
      simp [ServerConnector.stopImpl, active]

theorem Stops.isRunningSp {e : Event β} (stops : s.Stops e) (inv : Consistent s) (stepped : s.step e = some t) :
    t.isRunningSp = none := by
  cases e with
  | stopImpl index =>
      obtain ⟨run, found, rfl⟩ := step_stopImpl stepped
      obtain rfl : s.isRunningSp = run := Option.some.inj (stops.symm.trans found)
      have read : Consistent { s with stops := s.stops.eraseIdx index } := { inv with }
      exact read.stopImpl_current
  | refuse index =>
      obtain ⟨chain, found, current⟩ := stops
      obtain ⟨now, atNow, refused, rfl⟩ := onChain_eq_some.mp stepped
      obtain rfl : chain = now := Option.some.inj (found.symm.trans atNow)
      have active : s.isRunning (some chain.run) = true := (inv.flags chain.run).mpr current
      simp [ServerConnector.stopImpl, show (s.setChain index { chain with stage := .finished }).isRunning
        (some chain.run) = true from active]
  | _ => exact stops.elim

/-- Nothing but `start` begins a run. -/
theorem stays_stopped {e : Event β} (stopped : s.isRunningSp = none) (notStart : e ≠ .start)
    (stepped : s.step e = some t) : t.isRunningSp = none := by
  cases e with
  | start => exact absurd rfl notStart
  | stop =>
      cases stepped
      exact stopped
  | stopImpl index =>
      obtain ⟨run, -, rfl⟩ := step_stopImpl stepped
      exact (isRunningSp_stopImpl run).elim (fun same => same.trans stopped) id
  | connectNext index =>
      obtain ⟨chain, -, -, ⟨-, rfl⟩ | ⟨-, rfl⟩⟩ := step_connectNext stepped
      · exact stopped
      · exact stopped
  | refuse index =>
      obtain ⟨chain, -, -, rfl⟩ := onChain_eq_some.mp stepped
      exact (isRunningSp_stopImpl _).elim (fun same => same.trans stopped) id
  | pipeResult index pipe | readCompletes index res request accepted response | writeCompletes index res throws
  | notifyOnNewConnection index | eraseConnectionFutureFromMap index =>
      obtain ⟨chain, -, -, rfl⟩ := onChain_eq_some.mp stepped
      exact stopped

/-- The notifications of an open or closed last block are the beginning of whole blocks. -/
theorem Blocks.isPrefix (has : Blocks s blocks) : s.notifications <+: (blocks.map block).flatten := by
  cases running : s.isRunningSp with
  | none => exact has.closed running ▸ List.prefix_refl _
  | some run =>
      obtain ⟨before, connections, rfl, notifications⟩ := has.opened run running
      exact ⟨[.stopped], by simp [notifications, block]⟩

/-- In every reachable state of the connector:
    * the notifications are the beginning of one block for each run, and the connections of a block come from
      chains of that run, each with the pipe the chain was given;
    * no connection id belongs to two chains, or is published twice;
    * one `create_pipe` of a run at most is outstanding;
    * a step of a handshake, successful or not, neither stops the run nor notifies anybody;
    * a connector that does not run has no pending connections, so that there are none from the moment the
      current run is stopped until the next `start`. -/
theorem runs_in_blocks {es : List (Event β)} (ran : (machine β).run {} es = some s) :
    (∃ blocks : List (List (Nat × Nat)), s.notifications <+: (blocks.map block).flatten ∧
      (blocks.flatten.map Prod.fst).Nodup ∧
      ∀ (run : Nat) connections, blocks[run]? = some connections → ∀ connection ∈ connections,
        ∃ chain ∈ s.chains, chain.connectionId = connection.1 ∧ chain.pipe = some connection.2 ∧
          chain.run = run) ∧
    (s.chains.map ConnectChain.connectionId).Nodup ∧
    (∀ (i j : Nat) (first second : ConnectChain β), s.chains[i]? = some first → s.chains[j]? = some second →
      first.run = second.run → first.stage = .creating → second.stage = .creating → i = j) ∧
    (∀ e t, s.step e = some t → e.isHandshake = true →
      t.isRunningSp = s.isRunningSp ∧ t.notifications = s.notifications) ∧
    (s.isActive = false → s.getPendingConnectionsCount = 0) ∧
    (∀ es₁ s₁ e later, es = es₁ ++ e :: later → (machine β).run {} es₁ = some s₁ → s₁.Stops e →
      Event.start ∉ later → s.getPendingConnectionsCount = 0) := by
  obtain ⟨inv, blocks, has⟩ := run_sound ran
  refine ⟨⟨blocks, has.isPrefix, has.once, ?_⟩, ?_, ?_, ?_, ?_, ?_⟩
  · intro run connections atRun connection member
    obtain ⟨chain, found, own, pipe, _⟩ := has.own run connections atRun connection member
    exact ⟨chain, List.mem_of_getElem? found, inv.ids _ chain found, pipe, own⟩
  · rw [List.nodup_iff_getElem?_ne_getElem?]
    intro i j before inRange same
    rw [List.length_map] at inRange
    simp only [List.getElem?_map, List.getElem?_eq_getElem inRange,
      List.getElem?_eq_getElem (Nat.lt_trans before inRange), Option.map_some, Option.some.injEq] at same
    rw [inv.ids i _ (List.getElem?_eq_getElem _), inv.ids j _ (List.getElem?_eq_getElem _)] at same
    exact Nat.ne_of_lt before same
  · intro i j first second atI atJ sameRun firstCreates secondCreates
    apply inv.frontier i j first second atI atJ sameRun
    · rw [firstCreates]
      rfl
    · rw [secondCreates]
      rfl
  · intro e t stepped handshake
    obtain ⟨current, _, notifications⟩ := step_handshake stepped handshake
    exact ⟨current, notifications⟩
  · intro inactive
    rw [getPendingConnectionsCount, inv.stopped (inv.not_running inactive), List.length_nil]
  · rintro es₁ s₁ e later rfl ran₁ stops noStart
    obtain ⟨a, reached, rest⟩ := Machine.run_append_eq_some.mp ran
    obtain rfl : s₁ = a := Option.some.inj (ran₁.symm.trans reached)
    obtain ⟨s₂, stepped, rest⟩ := Machine.run_cons_eq_some.mp rest
    have stopped : Event.start ∉ later → s.isRunningSp = none := by
      refine Machine.run_induction (P := fun es t => Event.start ∉ es → t.isRunningSp = none)
        (fun _ => stops.isRunningSp (run_sound ran₁).1 stepped) ?_ rest
      intro es a e b _ before stepped noStart
      rw [List.mem_append, not_or, List.mem_singleton] at noStart
      exact stays_stopped (before noStart.1) (Ne.symm noStart.2) stepped
    rw [getPendingConnectionsCount, inv.stopped (stopped noStart), List.length_nil]

/-- A pipe accepted by the first run completes its handshake in the second run: it is not published. The second
    run publishes its own connection, and a failed handshake leaves it running. -/
theorem runs_in_blocks_example :
    ∃ s, (machine Nat).run {} [.start, .pipeResult 0 (some 7), .stop, .stopImpl 0, .start, .connectNext 0,
        .readCompletes 0 .success 1 true 2, .writeCompletes 0 .success false, .notifyOnNewConnection 0,
        .pipeResult 1 (some 8), .connectNext 1, .readCompletes 1 .success 1 true 2,
        .writeCompletes 1 .success false, .notifyOnNewConnection 1, .pipeResult 2 (some 9), .connectNext 2,
        .readCompletes 2 .timeout 0 false 0, .eraseConnectionFutureFromMap 2] = some s ∧
      (s.notifications = [.started, .stopped, .started, .newConnection 1 8] ∧ s.isActive = true) ∧
      (s.chains.map ConnectChain.connectionId).Nodup :=
  Machine.exists_run ⟨_, rfl, rfl, rfl⟩ fun ran _ => (runs_in_blocks ran).2.1

end ServerConnector

end CommonRpc
