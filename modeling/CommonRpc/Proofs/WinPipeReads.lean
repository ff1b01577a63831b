/-
Module: CommonRpc.Proofs.WinPipeReads
Purpose: What the read operations of a `win_pipe_endpoint` return, in every interleaving: the messages of the peer,
  in the order in which they were written. Whatever completes inside `start` and whatever comes through the worker
  loop, an operation that is worked on ends after finitely many steps, with the next message or, if that is too
  long, with a failure.
Trusted boundary: none
-/
import CommonRpc.Proofs.WinPipeEndpoint
import CommonRpc.Proofs.WinPipeReadBytes
import CommonRpc.Proofs.WinPipeReadSteps

namespace CommonRpc

/-! ### Every interleaving -/

theorem WinPipeFlow.Move.resolved {f g : WinPipeFlow} (move : Move f g) : f.side.resolved <+: g.side.resolved := by
  have resolve (side : WinPipeSide) (id : Nat) : side.resolved <+: (side.resolve id).resolved := by
    unfold WinPipeSide.resolve
    split
    · exact List.prefix_rfl
    · exact List.prefix_append _ _
  cases move with
  | @resolveTask rest id => exact resolve { f.side with tasks := rest } id
  | resolveWork => exact resolve f.side _
  | @resolveTimedOut index id => exact resolve { f.side with resolving := f.side.resolving.eraseIdx index } id
  | _ => exact List.prefix_rfl

namespace WinPipeEndpoint

variable {s s' : WinPipeEndpoint}

theorem resolved_of_step {event : Event} (stepped : step s event = some s') (tag : PipeSide) :
    (s.side tag).resolved <+: (s'.side tag).resolved := by
  have onwards : ∀ {f g : WinPipeFlow}, Moves f g → f.side.resolved <+: g.side.resolved := by
    intro f g moves
    induction moves with
    | refl => exact List.prefix_rfl
    | tail _ move ih => exact ih.trans move.resolved
  exact onwards (step_moves stepped tag)

@[simp] theorem isOpen_setSide (s : WinPipeEndpoint) (tag : PipeSide) (side : WinPipeSide) :
    (s.setSide tag side).isOpen = s.isOpen := by
  cases tag with | _ => rfl

/-- Only an invalidation and a callback on a future can close the pipe. -/
theorem isOpen_eq_of_step {event : Event} (stepped : step s event = some s') (stays : event ≠ .invalidate)
    (noCallback : ∀ tag index, event ≠ .continuation tag index) : s'.isOpen = s.isOpen := by
  cases event with
  | writeAsync timed | readAsync timed =>
      cases stepped
      unfold startAsync
      split
      · exact isOpen_setSide ..
      · exact isOpen_setSide ..
  | timerExpires timerId =>
      obtain ⟨timer, -, rfl⟩ := Option.map_eq_some_iff.mp stepped
      rfl
  | timerHandler timerId =>
      simp only [step] at stepped
      split at stepped
      · cases stepped
      · cases stepped
        rfl
      · cases stepped
        exact isOpen_setSide ..
  | resolveTimedOut tag index =>
      simp only [step] at stepped
      split at stepped
      · cases stepped
      · cases stepped
        exact isOpen_setSide ..
  | runTask tag | ioCall tag call =>
      obtain ⟨side, -, rfl⟩ := Option.map_eq_some_iff.mp stepped
      exact isOpen_setSide ..
  | ioCompletes tag index status bytes =>
      simp only [step] at stepped
      split at stepped
      · cases stepped
      · obtain ⟨-, done⟩ := Option.ite_none_left_eq_some.mp stepped
        cases done
        exact isOpen_setSide ..
  | runWorker =>
      simp only [step, runWorker] at stepped
      split at stepped
      · cases stepped
      · cases stepped
        exact isOpen_setSide ..
  | continuation tag index => exact absurd rfl (noCallback tag index)
  | invalidate => exact absurd rfl stays
  | setDisconnectCallback callback =>
      simp only [step] at stepped
      split at stepped
      · cases stepped
        rfl
      · cases stepped
        rfl

/-- A pipe that was closed stays closed. -/
theorem isOpen_of_step {event : Event} (stepped : step s event = some s') (opened : s'.isOpen = true) :
    s.isOpen = true := by
  cases event with
  | continuation tag index =>
      simp only [step, runContinuation] at stepped
      split at stepped
      · cases stepped
      · split at stepped
        · cases stepped
          simpa [completeOp] using opened
        · cases stepped
          split at opened
          · rw [isOpen_setSide, WinPipeReader.isOpen_invalidateImpl] at opened
            cases opened
          · simpa using opened
  | invalidate =>
      cases stepped
      rw [WinPipeReader.isOpen_invalidateImpl] at opened
      cases opened
  | _ => exact (isOpen_eq_of_step stepped (by simp) (by simp)) ▸ opened

end WinPipeEndpoint

/-! ### The end of an operation -/

namespace ReadView

variable {v w : ReadView} {id : Nat} {stage : ReadStage}

/-- How many bytes the chunks of the operation may still grow. -/
def room (v : ReadView) (id : Nat) : Nat :=
  MaxTransferMessageSize - (v.ops[id]?.getD {}).buffers.sum

/-- How many reads the operation may still issue. -/
def readsLeft (v : ReadView) : Nat :=
  match v.working with
  | some (id, .start) | some (id, .issue) => v.room id + 1
  | some (id, .inFlight _) | some (id, .arrived _ _) => v.room id
  | _ => 0

theorem readsLeft_issues (working : v.working = some (id, .issue)) :
    (v.reach id (.inFlight false)).readsLeft + 1 = v.readsLeft := by
  simp only [readsLeft, working]
  rfl

/-- A chunk takes at least one byte of what is left. -/
theorem room_grows {op grown : WinPipeOperation} {bytes : Nat} (sound : v.Sound) (found : v.ops[id]? = some op)
    (added : (op.addReadBytes bytes).addBufferChunk = some grown) :
    MaxTransferMessageSize - grown.buffers.sum + 1 ≤ v.room id := by
  have chunks : Chunks (op.addReadBytes bytes).buffers := sound.chunks op (List.mem_of_getElem? found)
  obtain ⟨chunks', size, rfl⟩ := addBufferChunk_eq_some chunks added
  have within := chunks'.within
  have positive := chunks'.positive size (by simp)
  simp only [room, found, Option.getD_some, List.sum_append, List.sum_singleton] at within ⊢
  change op.buffers.sum + size ≤ MaxTransferMessageSize at within
  change MaxTransferMessageSize - (op.buffers.sum + size) + 1 ≤ _
  omega

theorem Work.readsLeft_le (sound : v.Sound) (work : Work v w) : w.readsLeft ≤ v.readsLeft := by
  cases work with
  | begins working =>
      simp only [readsLeft, working]
      exact Nat.le_refl _
  | issues working => exact Nat.le_of_succ_le (readsLeft_issues working).le
  | cancels working =>
      simp only [readsLeft, working]
      exact Nat.le_refl _
  | arrives working =>
      simp only [readsLeft, working]
      exact Nat.le_refl _
  | aborts working =>
      simp only [readsLeft, working]
      exact Nat.le_refl _
  | @grows id bytes op grown working found added =>
      have less := room_grows sound found added
      simp only [readsLeft, working, room, Lib.Table.set_self found, Option.getD_some] at less ⊢
      exact less
  | @concludes id bytes status =>
      cases status with | _ => exact Nat.zero_le _
  | skips | exceeds | succeeds | fails | resolves => exact Nat.zero_le _

theorem Works.readsLeft_le (sound : v.Sound) (works : Works v w) : w.readsLeft ≤ v.readsLeft := by
  induction works with
  | refl => exact Nat.le_refl _
  | tail earlier work ih => exact (work.readsLeft_le (sound.moves (Works.moves earlier))).trans ih

/-- The operation has not timed out before bytes were counted. -/
def Committed (v : ReadView) (id : Nat) : Prop :=
  ∃ op, v.ops[id]? = some op ∧ (op.result = .timeout → 0 < op.readBytes)

/-- The operation is still worked on, or its promise was set. -/
inductive Progress (v : ReadView) (id : Nat) (w : ReadView) : Prop where
  | works {stage : ReadStage} (working : w.working = some (id, stage)) (received : w.received = v.received)
      (committed : w.Committed id)
  | done {promise : ReadPromise} (free : w.working = none) (received : w.received = v.received ++ [promise])
      (own : promise.id = id) (fine : promise.result ≠ .timeout)

theorem setFailedIfPossible_ne_timeout (op : WinPipeOperation) : op.setFailedIfPossible.result ≠ .timeout := by
  unfold WinPipeOperation.setFailedIfPossible WinPipeOperation.exchange
  split
  next => simp
  next =>
    split
    next => exact nofun
    next other => exact other

/-- The operation goes on with a stage and perhaps a new value. -/
theorem progress_of_entry {op : WinPipeOperation} (working : w.working = some (id, stage))
    (received : w.received = v.received) (found : w.ops[id]? = some op)
    (notLost : op.result = .timeout → 0 < op.readBytes) : Progress v id w :=
  .works working received ⟨op, found, notLost⟩

theorem Work.progress (sound : v.Sound) (working : v.working = some (id, stage)) (committed : v.Committed id)
    (work : Work v w) : Progress v id w := by
  obtain ⟨op, found, notLost⟩ := committed
  have updated (update : WinPipeOperation → WinPipeOperation) :
      (v.ops.modify id update)[id]? = some (update op) := by
    simp [found]
  have counted (bytes : Nat) : (op.addReadBytes bytes).result = .timeout → 0 < (op.addReadBytes bytes).readBytes :=
    fun timedOut => Nat.add_pos_left (notLost timedOut) bytes
  cases work with
  | begins own | skips own | issues own | cancels own | arrives own | aborts own =>
      cases working.symm.trans own
      exact progress_of_entry rfl rfl found notLost
  | @concludes _ bytes _ own | @exceeds _ bytes _ own =>
      cases working.symm.trans own
      exact progress_of_entry rfl rfl (updated _) (counted bytes)
  | @grows _ bytes _ grown own found' added =>
      cases working.symm.trans own
      cases found.symm.trans found'
      have chunks : Chunks (op.addReadBytes bytes).buffers := sound.chunks op (List.mem_of_getElem? found)
      obtain ⟨-, size, rfl⟩ := addBufferChunk_eq_some chunks added
      exact progress_of_entry rfl rfl (Lib.Table.set_self found) (counted bytes)
  | succeeds own =>
      cases working.symm.trans own
      exact progress_of_entry rfl rfl (updated _) nofun
  | fails own =>
      cases working.symm.trans own
      exact progress_of_entry rfl rfl (updated _) fun timedOut =>
        absurd timedOut (setFailedIfPossible_ne_timeout op)
  | @resolves _ _ buffers own found' allocated =>
      cases working.symm.trans own
      cases found.symm.trans found'
      obtain ⟨own', -, -, -, reached⟩ := sound.at_stage working found
      refine .done rfl rfl rfl fun timedOut => ?_
      replace timedOut : op.result = .timeout := timedOut
      have positive := notLost timedOut
      simp only [AtStage, timedOut] at reached
      omega

/-- Only an operation is worked on. -/
theorem Work.working (work : Work v w) : v.working ≠ none := by
  cases work with
  | _ working => simp [working]

theorem Work.sent (work : Work v w) : w.sent = v.sent := by
  cases work with | _ => rfl

theorem Works.progress (sound : v.Sound) (working : v.working = some (id, stage)) (committed : v.Committed id)
    (works : Works v w) : Progress v id w ∧ w.sent = v.sent := by
  induction works with
  | refl => exact ⟨.works working rfl committed, rfl⟩
  | @tail mid last earlier work ih =>
      obtain ⟨progress, sent⟩ := ih
      refine ⟨?_, work.sent.trans sent⟩
      cases progress with
      | works working' received committed' =>
          have next := work.progress (sound.moves (Works.moves earlier)) working' committed'
          cases next with
          | works working'' received' committed'' => exact .works working'' (received'.trans received) committed''
          | done free received' own fine => exact .done free (received ▸ received') own fine
      | done free => exact absurd free work.working

end ReadView

namespace WinPipeReader

open ReadView

variable {s t : WinPipeReader} {event : Event}

theorem transfer_same {u : WinPipeReader} {id : Nat} {read : PipeRead} (moved : s.transfer id = some (read, u)) :
    u.endpoint = s.endpoint ∧ u.received = s.received := by
  obtain ⟨own, back, entry, last, taken, rfl⟩ := transfer_eq_some moved
  exact ⟨rfl, rfl⟩

/-- The steps of the endpoint behind those of the reader. -/
inductive Action : Event → WinPipeEndpoint.Event → Prop where
  | calls {event : Event} {call : IoCall} (calls : event = .readMoreData ∨ event = .readPending) :
      Action event (.ioCall .read call)
  | fails : Action .readFails (.ioCall .read .error)
  | completes {event : Event} {index bytes : Nat} {status : IoStatus} :
      Action event (.ioCompletes .read index status bytes)
  | other (action : WinPipeEndpoint.Event) : Action (.other action) action

/-- All that the endpoint and its promises see of a step. -/
theorem Steps.action (steps : Steps s event t) :
    (∃ message, event = .send message) ∧ t.endpoint = s.endpoint ∧ t.received = s.received ∨
    ∃ (u : WinPipeReader) (action : WinPipeEndpoint.Event) (endpoint : WinPipeEndpoint), Action event action ∧
      u.endpoint = s.endpoint ∧ u.received = s.received ∧
      WinPipeEndpoint.step s.endpoint action = some endpoint ∧ t = u.follow endpoint := by
  cases steps with
  | sends message => exact .inl ⟨⟨message, rfl⟩, rfl, rfl⟩
  | @moreData u endpoint id rest read running moved more called =>
      obtain ⟨same, received⟩ := transfer_same moved
      exact .inr ⟨u, _, endpoint, .calls (.inl rfl), same, received, same ▸ called, rfl⟩
  | @completes u endpoint index io read found moved completed =>
      obtain ⟨same, received⟩ := transfer_same moved
      exact .inr ⟨u, _, endpoint, .completes, same, received, same ▸ completed, rfl⟩
  | pending called => exact .inr ⟨s, _, _, .calls (.inr rfl), rfl, rfl, called, rfl⟩
  | fails closed called => exact .inr ⟨s, _, _, .fails, rfl, rfl, called, rfl⟩
  | aborted completed => exact .inr ⟨s, _, _, .completes, rfl, rfl, completed, rfl⟩
  | other allowed stepped => exact .inr ⟨s, _, _, .other _, rfl, rfl, stepped, rfl⟩

/-- Invariant of the endpoint and its reader. -/
structure Sound (s : WinPipeReader) : Prop where
  flows : ∀ tag, (s.endpoint.flow tag).Sound
  logged : s.received.map ReadPromise.id = s.endpoint.reads.resolved.map Prod.fst
  reader : s.endpoint.isOpen = true → s.view.Sound

theorem Sound.kept (sound : s.Sound) (opened : s.endpoint.isOpen = true) : s.Kept :=
  ⟨sound.flows .read, (sound.reader opened).sized, sound.logged⟩

/-- Every promise of the endpoint has its value. -/
theorem logged_follow {u : WinPipeReader} {endpoint : WinPipeEndpoint}
    (logged : u.received.map ReadPromise.id = u.endpoint.reads.resolved.map Prod.fst)
    (grows : u.endpoint.reads.resolved <+: endpoint.reads.resolved) :
    (u.follow endpoint).received.map ReadPromise.id = endpoint.reads.resolved.map Prod.fst := by
  obtain ⟨new, resolved⟩ := grows
  have promised : (u.follow endpoint).received.map ReadPromise.id =
      u.received.map ReadPromise.id ++ new.map Prod.fst := by
    simp only [follow, ← resolved, List.drop_left, List.map_append, List.map_map]
    rfl
  rw [promised, logged, ← resolved, List.map_append]

theorem isOpen_of_steps (steps : Steps s event t) (opened : t.endpoint.isOpen = true) :
    s.endpoint.isOpen = true := by
  rcases steps.action with ⟨-, same, -⟩ | ⟨u, action, endpoint, -, -, -, ran, rfl⟩
  · rwa [same] at opened
  · exact WinPipeEndpoint.isOpen_of_step ran opened

theorem sound_step (sound : s.Sound) (stepped : machine.step s event = some t) : t.Sound := by
  have steps := steps_of_step stepped
  have reader (opened : t.endpoint.isOpen = true) : t.view.Sound := by
    have before := isOpen_of_steps steps opened
    exact (sound.reader before).moves (moves_step (sound.kept before) opened steps)
  rcases steps.action with ⟨-, same, received⟩ | ⟨u, action, endpoint, -, same, received, ran, rfl⟩
  · exact ⟨by rw [same]; exact sound.flows, by rw [same, received]; exact sound.logged, reader⟩
  · have logged := sound.logged
    rw [← received, ← same] at logged
    have grows := WinPipeEndpoint.resolved_of_step ran .read
    rw [← same] at grows
    exact ⟨WinPipeEndpoint.sound_step sound.flows ran, logged_follow logged grows, reader⟩

theorem sound_start : Sound {} where
  flows := WinPipeEndpoint.sound_start
  logged := rfl
  reader _ := {
    sized := rfl
    chunks := nofun
    fresh := nofun
    working := nofun
    free := fun _ _ => rfl
    answered := by simp [view]
    within := Nat.le_refl 0
    timeouts := nofun }

theorem sound_of_run {events : List Event} (ran : machine.run {} events = some s) : s.Sound :=
  Lib.Machine.run_invariant (P := Sound) sound_step sound_start ran

/-! ### Every operation ends -/

/-- How many steps the threads of the iocp owner and the system can still take. -/
def effort (s : WinPipeReader) : Nat := s.endpoint.weight + 4 * s.view.readsLeft

/-- A pending read weighs more than the task that issued it. -/
theorem weight_ioCall {side : WinPipeSide} {isOpen : Bool} {call : IoCall}
    (called : s.endpoint.reads.ioCall .read isOpen call = some side) :
    side.weight ≤ s.endpoint.reads.weight + 2 := by
  unfold WinPipeSide.ioCall at called
  split at called
  next id rest running =>
    have failed : WinPipeSide.weight { s.endpoint.reads with tasks := .fail id :: rest } ≤
        s.endpoint.reads.weight + 2 :=
      (WinPipeSide.weight_task running (by simp [IocpTask.weight])).le.trans (Nat.le_add_right _ 2)
    cases call with
    | pending =>
        obtain ⟨-, done⟩ := Option.ite_none_right_eq_some.mp called
        cases done
        rw [WinPipeSide.weight_cons running]
        simp only [WinPipeSide.weight, IocpTask.weight, List.length_append, List.length_singleton]
        omega
    | moreData =>
        dsimp only at called
        split at called
        next =>
          split at called
          next side' added =>
            cases called
            obtain ⟨ops, rfl, -⟩ := WinPipeSide.addBufferChunk_evolves added
            exact Nat.le_add_right _ 2
          next =>
            cases called
            exact failed
        next => cases called
    | error =>
        cases called
        exact failed
  next => cases called

/-- The completion of I/O. -/
theorem weight_ioCompletes {endpoint : WinPipeEndpoint} {index bytes : Nat} {status : IoStatus}
    (completed : WinPipeEndpoint.step s.endpoint (.ioCompletes .read index status bytes) = some endpoint) :
    endpoint.weight < s.endpoint.weight := by
  simp only [WinPipeEndpoint.step] at completed
  split at completed
  next => cases completed
  next io found =>
    obtain ⟨-, done⟩ := Option.ite_none_left_eq_some.mp completed
    cases done
    apply WinPipeEndpoint.setWorker_lowers
    have length := List.length_eraseIdx_of_lt (Lib.Table.lt_of_entry found)
    have inside := Lib.Table.lt_of_entry found
    simp only [WinPipeSide.weight, List.map_append, List.map_cons, List.map_nil, List.sum_append, List.sum_cons,
      List.sum_nil, WorkerJob.weight, length]
    omega

/-- Whatever is done leaves less to do, except for a call of `ReadFile`. -/
theorem weight_step (steps : Steps s event t) (isWork : event.isWork = true) :
    t.endpoint.weight < s.endpoint.weight ∨
      (event = .readMoreData ∨ event = .readPending) ∧ t.endpoint.weight ≤ s.endpoint.weight + 2 := by
  rcases steps.action with ⟨⟨message, rfl⟩, -⟩ | ⟨u, action, endpoint, acts, -, -, ran, rfl⟩
  · cases isWork
  cases acts with
  | calls calls =>
      obtain ⟨side, answered, rfl⟩ := Option.map_eq_some_iff.mp ran
      have bound : side.weight ≤ (s.endpoint.side .read).weight + 2 := weight_ioCall answered
      have exchanged := WinPipeEndpoint.weight_setSide s.endpoint .read side
      refine .inr ⟨calls, ?_⟩
      change (s.endpoint.setSide .read side).weight ≤ s.endpoint.weight + 2
      omega
  | fails => cases isWork
  | completes => exact .inl (weight_ioCompletes ran)
  | other =>
      cases action with
      | runTask tag =>
          obtain ⟨side, advanced, same⟩ := Option.map_eq_some_iff.mp ran
          exact .inl (same ▸ WinPipeEndpoint.setSide_lowers (WinPipeSide.weight_runTask advanced))
      | runWorker =>
          have busy : s.endpoint.worker ≠ [] := by
            intro idle
            simp [WinPipeEndpoint.step, WinPipeEndpoint.runWorker, idle] at ran
          obtain ⟨endpoint, ran', lower⟩ := WinPipeEndpoint.runWorker_lowers busy
          cases ran.symm.trans ran'
          exact .inl lower
      | _ => cases isWork

theorem effort_step (sound : s.Sound) (opened : s.endpoint.isOpen = true) (steps : Steps s event t)
    (isWork : event.isWork = true) : t.effort < s.effort := by
  have kept := sound.kept opened
  rcases weight_step steps isWork with lower | ⟨calls, bound⟩
  · have left := Works.readsLeft_le (sound.reader opened) (works_step kept steps isWork)
    simp only [effort]
    omega
  · obtain ⟨id, working, works⟩ := issued_step kept steps calls
    have left := Works.readsLeft_le ((sound.reader opened).work (.issues working)) works
    have issued := readsLeft_issues working
    simp only [effort]
    omega

/-- The threads of the iocp owner and the system. -/
def worker : Lib.Machine WinPipeReader Event := machine.restrict fun _ event => event.isWork

/-- They do not close the pipe. -/
theorem isOpen_work (opened : s.endpoint.isOpen = true) (steps : Steps s event t) (isWork : event.isWork = true) :
    t.endpoint.isOpen = true := by
  rcases steps.action with ⟨-, same, -⟩ | ⟨u, action, endpoint, acts, -, -, ran, rfl⟩
  · rwa [same]
  rw [← opened]
  cases acts with
  | calls | fails | completes => exact WinPipeEndpoint.isOpen_eq_of_step ran (by simp) (by simp)
  | other =>
      refine WinPipeEndpoint.isOpen_eq_of_step ran ?_ ?_
      · rintro rfl
        cases isWork
      · rintro tag index rfl
        cases isWork

theorem step_other {action : WinPipeEndpoint.Event} {endpoint : WinPipeEndpoint} (allowed : action.isReadIo = false)
    (ran : WinPipeEndpoint.step s.endpoint action = some endpoint) :
    step s (.other action) = some (s.follow endpoint) := by
  simp [step, stepEndpoint, allowed, ran]

theorem exists_work_of_task {task : IocpTask} {rest : List IocpTask} (sound : s.Sound)
    (opened : s.endpoint.isOpen = true) (running : s.endpoint.reads.tasks = task :: rest) :
    ∃ event t, event.isWork = true ∧ step s event = some t := by
  have inside (id : Nat) (carrier : task.carrier = some id) : id < s.endpoint.reads.ops.length :=
    WinPipeFlow.lt_of_carries (sound.flows .read).tokens running carrier
  rcases WinPipeSide.exists_task_step .read s.endpoint.isOpen running inside with ⟨side, ran⟩ | ⟨side, called⟩
  · have stepped : WinPipeEndpoint.step s.endpoint (.runTask .read) = some (s.endpoint.setSide .read side) :=
      Option.map_eq_some_iff.mpr ⟨side, ran, rfl⟩
    exact ⟨.other (.runTask .read), _, rfl, step_other rfl stepped⟩
  · refine ⟨.readPending, ?_⟩
    unfold WinPipeSide.ioCall at called
    split at called
    next id rest running' =>
      simp [Event.isWork, step, stepEndpoint, WinPipeEndpoint.step, WinPipeEndpoint.side, WinPipeSide.ioCall,
        running', opened]
    next => cases called

theorem exists_work_of_io {io : PendingIo} {others : List PendingIo} (sound : s.Sound)
    (opened : s.endpoint.isOpen = true) (available : s.view.rest ≠ [])
    (inFlight : s.endpoint.reads.inFlight = io :: others) :
    ∃ event t, event.isWork = true ∧ step s event = some t := by
  have found : s.endpoint.reads.inFlight[0]? = some io := congrArg (·[0]?) inFlight
  obtain ⟨working, -⟩ := reached_packet (sound.kept opened) found .success 0
  obtain ⟨-, op, own, -, allocated, -, -, content, reading⟩ := (sound.reader opened).working _ _ working
  obtain ⟨filled, back, full, -⟩ := reading.full
  have pipe : s.pipe ≠ [] := by
    intro empty
    apply available
    rw [reading.outstanding, show s.view.pipe = [] from empty]
    rfl
  obtain ⟨message, later, messages⟩ := List.exists_cons_of_ne_nil pipe
  obtain ⟨read, taken⟩ : ∃ read, readMessage s.pipe back.length = some read := by
    rw [messages, readMessage]
    split
    · exact ⟨_, rfl⟩
    · exact ⟨_, rfl⟩
  have last : s.buffers[io.id]?.bind List.getLast? = some back := by
    rw [show s.buffers[io.id]? = some own from allocated, full]
    simp
  have moved : s.transfer io.id = some (read, { s with
      pipe := read.left, buffers := s.buffers.modify io.id (fillLast read.bytes) }) := by
    simp [transfer, last, taken]
  have completed : (if read.moreData then IoStatus.moreData else .success) ≠ .operationAborted := by
    split
    · exact nofun
    · exact nofun
  refine ⟨.readCompletes 0, ?_⟩
  simp [Event.isWork, step, found, moved, stepEndpoint, WinPipeEndpoint.step, WinPipeEndpoint.side, completed]

/-- While an operation is worked on and there is a message for it, somebody can go on. -/
theorem exists_work (sound : s.Sound) (opened : s.endpoint.isOpen = true) (busy : s.view.working ≠ none)
    (available : s.view.rest ≠ []) : ∃ event t, event.isWork = true ∧ step s event = some t := by
  by_cases worker : s.endpoint.worker = []
  · cases tasks : s.endpoint.reads.tasks with
    | nil =>
        cases inFlight : s.endpoint.reads.inFlight with
        | nil =>
            refine absurd ?_ busy
            simp [view, WinPipeFlow.stages, WinPipeEndpoint.flow, WinPipeEndpoint.side, tasks, inFlight, worker]
        | cons io others => exact exists_work_of_io sound opened available inFlight
    | cons task rest => exact exists_work_of_task sound opened tasks
  · obtain ⟨endpoint, ran, -⟩ := WinPipeEndpoint.runWorker_lowers worker
    exact ⟨.other .runWorker, _, rfl, step_other rfl ran⟩

/-- What is kept while only the threads of the iocp owner and the system run. -/
structure Working (s t : WinPipeReader) : Prop where
  sound : t.Sound
  opened : t.endpoint.isOpen = true
  works : Works s.view t.view

theorem working_step {u : WinPipeReader} (before : Working s t) (stepped : worker.step t event = some u) :
    Working s u := by
  obtain ⟨isWork, stepped⟩ := Lib.Machine.restrict_step.mp stepped
  have steps := steps_of_step stepped
  exact ⟨sound_step before.sound stepped, isOpen_work before.opened steps isWork,
    before.works.trans (works_step (before.sound.kept before.opened) steps isWork)⟩

/-- What the promise of an operation should be set to if this is the next message. -/
def expected (id : Nat) (message : Bytes) : ReadPromise :=
  if message.length ≤ MaxTransferMessageSize then { id, result := .success, buffer := some (message.map some) }
  else { id, result := .failed, buffer := none }

theorem eq_expected {sent : List Bytes} {before : List ReadPromise} {promise : ReadPromise} {message : Bytes}
    (answered : Answered sent before promise) (next : sent[taken before]? = some message)
    (fine : promise.result ≠ .timeout) : promise = expected promise.id message := by
  obtain ⟨id, result, buffer⟩ := promise
  unfold Answered at answered
  cases result with
  | success =>
      obtain ⟨message', next', short, whole⟩ := answered
      cases next.symm.trans next'
      rw [expected, if_pos short]
      exact congrArg (ReadPromise.mk id .success) whole
  | failed =>
      obtain ⟨none, message', next', long⟩ := answered
      cases next.symm.trans next'
      rw [expected, if_neg (Nat.not_le.mpr long)]
      exact congrArg (ReadPromise.mk id .failed) none
  | timeout => exact absurd rfl fine
  | unknown => exact answered.elim
  | canceled => exact answered.elim

/-- The back operation, if it is not resolved, is the one that is worked on. -/
theorem Sound.working_of_back {id : Nat} (sound : s.Sound) (back : s.endpoint.reads.backId = some id)
    (unresolved : id ∉ s.received.map ReadPromise.id) : ∃ stage, s.view.working = some (id, stage) := by
  rw [sound.logged] at unresolved
  have tokens : (s.endpoint.flow .read).tokens.Sound := (sound.flows .read).tokens
  have carried : id ∈ (s.endpoint.flow .read).tokens.carriers := by
    have first := tokens.first id ((WinPipeFlow.head_tokens _).trans back)
    rw [List.count_eq_zero.mpr (show id ∉ (s.endpoint.flow .read).tokens.settled from unresolved)] at first
    exact List.count_pos_iff.mp (by omega)
  cases stages : (s.endpoint.flow .read).stages with
  | nil =>
      rw [← WinPipeFlow.map_stages, stages] at carried
      cases carried
  | cons first rest =>
      -- a carrier is the back
      have isBack : s.endpoint.reads.backId = some first.1 := by
        refine (WinPipeFlow.head_tokens (s.endpoint.flow .read)).symm.trans (tokens.active _ ?_)
        rw [← WinPipeFlow.map_stages, stages]
        exact .head _
      obtain rfl : id = first.1 := Option.some.inj (back.symm.trans isBack)
      exact ⟨first.2, congrArg List.head? stages⟩

/-- Whatever the peer, the callers, the timers, the iocp thread, the system and the worker loop do in whatever
    order, as long as the pipe was not closed: the promise of every read operation got the next message of the
    peer, whole and in its turn, if that is not too long, and a failure if it is; or it timed out before any of its
    bytes were counted. The chunks of an operation are never longer together than a message may be, and none is
    empty. And an operation that is worked on and has a message ends, however its reads complete, unless it timed
    out before the first bytes were counted: the threads and the system can take a bounded number of steps, and
    when they cannot take any, its promise is set as it should. -/
theorem read_operations_exact {events : List Event} (ran : machine.run {} events = some s)
    (opened : s.endpoint.isOpen = true) :
    (∀ before promise after, s.received = before ++ promise :: after → Answered s.sent before promise) ∧
    (∀ own ∈ s.buffers, (own.map List.length).sum ≤ MaxTransferMessageSize ∧ ∀ chunk ∈ own, chunk ≠ []) ∧
    (∀ promise ∈ s.received, promise.result = .timeout →
      ∃ op, s.endpoint.reads.ops[promise.id]? = some op ∧ op.readBytes = 0) ∧
    ∀ (id : Nat) (op : WinPipeOperation) (message : Bytes), s.endpoint.reads.backId = some id →
      id ∉ s.received.map ReadPromise.id → s.endpoint.reads.ops[id]? = some op →
      op.result = .unknown ∨ 0 < op.readBytes → s.sent[taken s.received]? = some message →
      ∀ (later : List Event) (t : WinPipeReader), worker.run s later = some t →
        later.length ≤ s.effort ∧
        ((∀ event, worker.step t event = none) → t.received = s.received ++ [expected id message]) := by
  have sound := sound_of_run ran
  have reader := sound.reader opened
  refine ⟨reader.answered, ?_, reader.timeouts, ?_⟩
  · intro own listed
    obtain ⟨id, entry⟩ := List.getElem?_of_mem listed
    obtain ⟨op, found, sizes⟩ := reader.sized.of_own entry
    have chunks := reader.chunks op (List.mem_of_getElem? found)
    rw [← sizes] at chunks
    refine ⟨chunks.within, fun chunk member empty => ?_⟩
    exact Nat.lt_irrefl 0 (chunks.positive 0 (List.mem_map.mpr ⟨chunk, member, by rw [empty]; rfl⟩))
  · intro id op message back unresolved found committed next later t finished
    obtain ⟨stage, working⟩ := sound.working_of_back back unresolved
    have notLost : s.view.Committed id := ⟨op, found, fun timedOut => committed.resolve_left (by simp [timedOut])⟩
    have start : Working s s := ⟨sound, opened, .refl⟩
    have ended : Working s t := Lib.Machine.run_invariant working_step start finished
    constructor
    · refine Lib.Machine.run_length_le (P := Working s) working_step (fun before stepped => ?_) start finished
      obtain ⟨isWork, stepped⟩ := Lib.Machine.restrict_step.mp stepped
      exact effort_step before.sound before.opened (steps_of_step stepped) isWork
    · intro stuck
      obtain ⟨progress, sent⟩ := Works.progress reader working notLost ended.works
      cases progress with
      | works working' received =>
          have available : t.view.rest ≠ [] := by
            intro none
            rw [rest_congr sent received] at none
            have first := head_rest s.view
            rw [none, show s.view.sent[taken s.view.received]? = some message from next] at first
            cases first
          obtain ⟨event, u, isWork, stepped⟩ := exists_work ended.sound ended.opened (by simp [working']) available
          have moves : worker.step t event = some u := Lib.Machine.restrict_step.mpr ⟨isWork, stepped⟩
          rw [stuck event] at moves
          cases moves
      | @done promise free received own fine =>
          have answered := (ended.sound.reader ended.opened).answered s.received promise [] received
          rw [sent] at answered
          rw [← own, ← eq_expected answered next fine]
          exact received

/-- A read of a message of 20000 bytes that has just been handed to the iocp thread; the first chunk holds 8192 of
    them. -/
theorem read_operations_exact_started :
    ∃ s, machine.run {} [.send (List.replicate 20000 7), .other (.readAsync true)] = some s ∧
      (s.endpoint.isOpen = true ∧ s.endpoint.reads.backId = some 0 ∧ s.received = [] ∧
        s.endpoint.reads.ops[0]? = some { buffers := [8192] } ∧ s.sent = [List.replicate 20000 7]) ∧
      ∀ (later : List Event) (t : WinPipeReader), worker.run s later = some t →
        (∀ event, worker.step t event = none) →
        t.received = [{ id := 0, result := .success, buffer := some (List.replicate 20000 (some 7)) }] := by
  refine Lib.Machine.exists_run ⟨_, rfl, rfl, rfl, rfl, rfl, rfl⟩
    fun {s} ran ⟨opened, back, received, found, sent⟩ later t finished stuck => ?_
  obtain ⟨-, -, -, completes⟩ := read_operations_exact ran opened
  have next : s.sent[taken s.received]? = some (List.replicate 20000 7) := by
    rw [sent, received]
    rfl
  have done := completes 0 _ _ back (by simp [received]) found (.inl rfl) next later t finished
  rw [done.2 stuck, received, List.nil_append, expected, List.length_replicate, if_pos (by decide),
    List.map_replicate]

end WinPipeReader

end CommonRpc
