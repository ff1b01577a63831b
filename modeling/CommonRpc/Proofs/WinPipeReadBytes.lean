/-
Module: CommonRpc.Proofs.WinPipeReadBytes
Purpose: Which bytes a reader of the pipe has. Every chunk of an operation but the last one is full, so that what
  was counted is a prefix of the concatenated chunks; together with what is left in the pipe it is the message
  that is next. The chunks together are never longer than a message may be, and a message that does not fit has
  filled all of them.
Trusted boundary: none
-/
import CommonRpc.Proofs.WinPipeReadMoves

namespace CommonRpc

/-! ### Merged buffers -/

/-- `ans` and `curr_pos` after some bytes were copied. -/
def copiedTo (size : Nat) (written : ReadBuffer) : ReadBuffer × Nat :=
  (written ++ newBuffer (size - written.length), written.length)

theorem copyByte_copiedTo {size : Nat} {written : ReadBuffer} (fits : written.length ≤ size) (byte : Option UInt8) :
    copyByte size (copiedTo size written) byte = copiedTo size ((written ++ [byte]).take size) := by
  rcases Nat.lt_or_eq_of_le fits with room | full
  · have more : (written ++ [byte]).take size = written ++ [byte] := List.take_of_length_le (by simp; omega)
    have next : size - written.length = (size - (written ++ [byte]).length) + 1 := by simp; omega
    rw [more]
    simp only [copyByte, copiedTo, if_pos room, newBuffer, next, List.replicate_succ]
    simp
  · have none : (written ++ [byte]).take size = written := by rw [← full]; simp
    rw [none]
    simp [copyByte, copiedTo, full]

theorem foldl_copyByte {size : Nat} {written : ReadBuffer} (fits : written.length ≤ size) (bytes : ReadBuffer) :
    bytes.foldl (copyByte size) (copiedTo size written) = copiedTo size ((written ++ bytes).take size) := by
  induction bytes generalizing written with
  | nil => simp [List.take_of_length_le fits]
  | cons byte bytes ih =>
      have room : size - ((written ++ [byte]).take size).length = size - (written ++ [byte]).length := by
        rw [List.length_take]
        omega
      have step : ((written ++ [byte]).take size ++ bytes).take size = (written ++ [byte] ++ bytes).take size := by
        rw [List.take_append, room, List.take_take, Nat.min_self, ← List.take_append]
      rw [List.foldl_cons, copyByte_copiedTo fits, ih (List.length_take_le _ _), step, List.append_assoc]
      rfl

theorem mergeBuffers_eq {buffers : List ReadBuffer} {size : Nat} (enough : size ≤ buffers.flatten.length) :
    mergeBuffers buffers size = buffers.flatten.take size := by
  have start : (newBuffer size, 0) = copiedTo size [] := by simp [copiedTo]
  have length : (buffers.flatten.take size).length = size := List.length_take_of_le enough
  rw [mergeBuffers, ← List.foldl_flatten, start, foldl_copyByte (Nat.zero_le size), List.nil_append, copiedTo,
    length, Nat.sub_self]
  exact List.append_nil _

namespace WinPipeOperation

theorem exchange_readBytes (expected desired : WinPipeOperationRes) (op : WinPipeOperation) :
    (op.exchange expected desired).readBytes = op.readBytes := by
  unfold exchange
  split
  · rfl
  · rfl

/-- The operation has no result, or only that of its timer. -/
def Undecided (op : WinPipeOperation) : Prop := op.result = .unknown ∨ op.result = .timeout

/-- Nobody has worked on the operation. -/
structure Fresh (op : WinPipeOperation) : Prop where
  nothing : op.readBytes = 0
  buffers : op.buffers = [8192]
  undecided : op.Undecided

theorem Fresh.timesOut {op : WinPipeOperation} (fresh : op.Fresh) : op.setTimeoutIfPossible.Fresh := by
  by_cases isUnknown : op.result = .unknown
  · rw [setTimeoutIfPossible, exchange, if_pos isUnknown]
    exact ⟨fresh.nothing, fresh.buffers, .inr rfl⟩
  · rwa [setTimeoutIfPossible, exchange, if_neg isUnknown]

end WinPipeOperation

namespace ReadView

/-! ### Chunks -/

/-- The sizes of the chunks of an operation. -/
structure Chunks (sizes : List Nat) : Prop where
  within : sizes.sum ≤ MaxTransferMessageSize
  positive : ∀ size ∈ sizes, 0 < size
  nonempty : sizes ≠ []

theorem chunks_first : Chunks [8192] := ⟨by decide, by decide, nofun⟩

/-- The next chunk takes what is missing at most. -/
theorem addBufferChunk_eq_some {op grown : WinPipeOperation} (chunks : Chunks op.buffers)
    (added : op.addBufferChunk = some grown) :
    Chunks grown.buffers ∧ ∃ size, grown = { op with buffers := op.buffers ++ [size] } := by
  unfold WinPipeOperation.addBufferChunk at added
  rw [← List.sum_eq_foldl] at added
  obtain ⟨room, done⟩ := Option.ite_none_left_eq_some.mp added
  cases done
  obtain ⟨prevSize, last⟩ : ∃ size, op.buffers.getLast? = some size :=
    ⟨_, List.getLast?_eq_some_getLast chunks.nonempty⟩
  have positive := chunks.positive prevSize (List.mem_of_getLast? last)
  refine ⟨⟨?_, ?_, by simp⟩, _, rfl⟩
  · rw [List.sum_append, List.sum_singleton]
    omega
  · intro size listed
    rcases List.mem_append.mp listed with old | new
    · exact chunks.positive size old
    · rw [List.mem_singleton.mp new, last, Option.getD_some]
      omega

theorem addBufferChunk_eq_none {op : WinPipeOperation} (full : op.addBufferChunk = none) :
    MaxTransferMessageSize ≤ op.buffers.sum := by
  unfold WinPipeOperation.addBufferChunk at full
  rw [← List.sum_eq_foldl] at full
  by_contra room
  rw [if_neg room] at full
  cases full

/-! ### What an operation has -/

/-- The message that is being read, put together again. -/
def rejoin (content : Bytes) : List Bytes → List Bytes
  | [] => []
  | message :: rest => (content ++ message) :: rest

/-- All chunks but the last are full; `rest` are the messages that nobody has got. -/
structure Reading (rest pipe : List Bytes) (op : WinPipeOperation) (own : List ReadBuffer) (content : Bytes) :
    Prop where
  full : ∃ filled back, own = filled ++ [back] ∧ filled.flatten = content.map some
  counted : op.readBytes = content.length
  outstanding : rest = rejoin content pipe
  more : content ≠ [] → pipe ≠ []

/-- The operation has got the next message. -/
def Complete (rest pipe : List Bytes) (op : WinPipeOperation) (own : List ReadBuffer) : Prop :=
  ∃ message, mergeBuffers own op.readBytes = message.map some ∧ message.length ≤ MaxTransferMessageSize ∧
    rest = message :: pipe

/-- The next message is too long. -/
def TooLong (rest : List Bytes) : Prop :=
  ∃ message later, rest = message :: later ∧ MaxTransferMessageSize < message.length

/-- What is known of an operation that is worked on. -/
def AtStage (rest pipe : List Bytes) (op : WinPipeOperation) (own : List ReadBuffer) : ReadStage → Prop
  | .start => op.Fresh ∧ rest = pipe
  | .issue => op.Undecided ∧ ∃ content, Reading rest pipe op own content
  | .inFlight aborted => op.Undecided ∧ (aborted = true → op.readBytes = 0 ∧ op.result = .timeout) ∧
      ∃ content, Reading rest pipe op own content
  | .arrived .success bytes => op.Undecided ∧
      ∃ message, own.flatten.take (op.readBytes + bytes) = message.map some ∧
        op.readBytes + bytes = message.length ∧ rest = message :: pipe
  | .arrived .moreData bytes => op.Undecided ∧
      ∃ content, own.flatten = content.map some ∧ op.readBytes + bytes = content.length ∧
        rest = rejoin content pipe ∧ ∃ message later, pipe = message :: later ∧ message ≠ []
  | .arrived .operationAborted bytes => bytes = 0 ∧ op.readBytes = 0 ∧ op.result = .timeout ∧ rest = pipe
  | .arrived .other _ => False
  | .succeed => op.Undecided ∧ Complete rest pipe op own
  | .fail => op.Undecided ∧ TooLong rest
  | .resolve =>
      match op.result with
      | .success => Complete rest pipe op own
      | .failed => TooLong rest
      | .timeout => op.readBytes = 0 ∧ rest = pipe
      | .unknown | .canceled => False

section Stages

variable {rest pipe : List Bytes} {op : WinPipeOperation} {own : List ReadBuffer}

theorem rejoin_nil (pipe : List Bytes) : rejoin [] pipe = pipe := by
  cases pipe with | _ => rfl

theorem length_flatten_own (sizes : own.map List.length = op.buffers) : own.flatten.length = op.buffers.sum := by
  rw [List.length_flatten, sizes]

/-- The first read. -/
theorem AtStage.begins (sizes : own.map List.length = op.buffers) (reached : AtStage rest pipe op own .start) :
    AtStage rest pipe op own .issue := by
  obtain ⟨fresh, boundary⟩ := reached
  rw [fresh.buffers, List.map_eq_singleton_iff] at sizes
  obtain ⟨back, rfl, -⟩ := sizes
  exact ⟨fresh.undecided, [], ⟨[], back, rfl, rfl⟩, fresh.nothing, boundary.trans (rejoin_nil pipe).symm,
    fun some => absurd rfl some⟩

theorem AtStage.skips (isKnown : op.result ≠ .unknown) (reached : AtStage rest pipe op own .start) :
    AtStage rest pipe op own .resolve := by
  obtain ⟨fresh, boundary⟩ := reached
  have timedOut := fresh.undecided.resolve_left isKnown
  simp only [AtStage, timedOut]
  exact ⟨fresh.nothing, boundary⟩

theorem AtStage.aborts (reached : AtStage rest pipe op own (.inFlight true)) :
    AtStage rest pipe op own (.arrived .operationAborted 0) := by
  obtain ⟨-, aborted, content, reading⟩ := reached
  obtain ⟨nothing, timedOut⟩ := aborted rfl
  have empty : content = [] := List.eq_nil_of_length_eq_zero (reading.counted.symm.trans nothing)
  have boundary := reading.outstanding
  rw [empty, rejoin_nil] at boundary
  exact ⟨rfl, nothing, timedOut, boundary⟩

/-- A read takes from the next message; if there is more, it has filled the last chunk. -/
theorem AtStage.arrives {aborted : Bool} {back : ReadBuffer} {read : PipeRead} (last : own.getLast? = some back)
    (taken : readMessage pipe back.length = some read) (reached : AtStage rest pipe op own (.inFlight aborted)) :
    AtStage rest read.left op (fillLast read.bytes own)
      (.arrived (if read.moreData then .moreData else .success) read.bytes.length) := by
  obtain ⟨undecided, -, content, reading⟩ := reached
  obtain ⟨filled, back', rfl, flat⟩ := reading.full
  obtain rfl : back' = back := by simpa using last
  rw [fillLast_eq last, List.dropLast_concat]
  unfold readMessage at taken
  split at taken
  next => cases taken
  next message later =>
    split at taken
    next more =>
      cases taken
      have length : (message.take back'.length).length = back'.length := List.length_take_of_le more.le
      have whole : back'.fill (message.take back'.length) = (message.take back'.length).map some := by
        rw [ReadBuffer.fill, length, List.drop_length, List.append_nil]
      refine ⟨undecided, content ++ message.take back'.length, ?_, ?_, ?_, _, _, rfl, ?_⟩
      · simp [flat, whole]
      · rw [reading.counted, List.length_append]
      · rw [reading.outstanding, rejoin, rejoin, List.append_assoc, List.take_append_drop]
      · simpa using more
    next fits =>
      cases taken
      have flatten : (filled ++ [back'.fill message]).flatten =
          (content ++ message).map some ++ back'.drop message.length := by
        simp [flat, ReadBuffer.fill]
      refine ⟨undecided, content ++ message, ?_, ?_, reading.outstanding⟩
      · rw [flatten, reading.counted, List.take_left' (by simp)]
      · rw [reading.counted, List.length_append]

/-- The counted bytes are the message. -/
theorem AtStage.concludes {status : IoStatus} {bytes : Nat} (sizes : own.map List.length = op.buffers)
    (chunks : Chunks op.buffers) (ended : status ≠ .moreData)
    (reached : AtStage rest pipe op own (.arrived status bytes)) :
    AtStage rest pipe (op.addReadBytes bytes) own (conclusion status) := by
  cases status with
  | success =>
      obtain ⟨undecided, message, flat, counted, boundary⟩ := reached
      have enough : op.readBytes + bytes ≤ own.flatten.length := by
        have length := congrArg List.length flat
        rw [List.length_take, List.length_map] at length
        omega
      refine ⟨undecided, message, (mergeBuffers_eq enough).trans flat, ?_, boundary⟩
      rw [length_flatten_own sizes] at enough
      exact counted ▸ enough.trans chunks.within
  | moreData => exact absurd rfl ended
  | operationAborted =>
      obtain ⟨rfl, nothing, timedOut, boundary⟩ := reached
      have same : (op.addReadBytes 0).result = .timeout := timedOut
      simp only [conclusion, AtStage, same]
      exact ⟨nothing, boundary⟩
  | other => exact reached.elim

theorem AtStage.grows {bytes : Nat} {grown : WinPipeOperation} (sizes : own.map List.length = op.buffers)
    (chunks : Chunks op.buffers) (added : (op.addReadBytes bytes).addBufferChunk = some grown)
    (reached : AtStage rest pipe op own (.arrived .moreData bytes)) :
    AtStage rest pipe grown (allocate own grown.buffers) .issue := by
  obtain ⟨undecided, content, flat, counted, outstanding, message, later, rfl, -⟩ := reached
  have counting : Chunks (op.addReadBytes bytes).buffers := chunks
  obtain ⟨-, size, rfl⟩ := addBufferChunk_eq_some counting added
  have pushed : allocate own (op.buffers ++ [size]) = own ++ [newBuffer size] := by
    have length : own.length = op.buffers.length := by rw [← sizes, List.length_map]
    rw [allocate, length, List.drop_left]
    rfl
  exact ⟨undecided, content, ⟨own, newBuffer size, pushed, flat⟩, counted, outstanding,
    fun _ => List.cons_ne_nil _ _⟩

/-- All chunks are full, and there is more. -/
theorem AtStage.exceeds {bytes : Nat} (sizes : own.map List.length = op.buffers)
    (full : (op.addReadBytes bytes).addBufferChunk = none)
    (reached : AtStage rest pipe op own (.arrived .moreData bytes)) :
    AtStage rest pipe (op.addReadBytes bytes) own .fail := by
  obtain ⟨undecided, content, flat, counted, outstanding, message, later, rfl, more⟩ := reached
  refine ⟨undecided, content ++ message, later, outstanding, ?_⟩
  have filled := addBufferChunk_eq_none full
  change MaxTransferMessageSize ≤ op.buffers.sum at filled
  have length := congrArg List.length flat
  rw [length_flatten_own sizes, List.length_map] at length
  have positive := List.length_pos_iff.mpr more
  rw [List.length_append]
  omega

theorem AtStage.succeeds (reached : AtStage rest pipe op own .succeed) :
    AtStage rest pipe op.setSuccess own .resolve := reached.2

theorem AtStage.fails (reached : AtStage rest pipe op own .fail) :
    AtStage rest pipe op.setFailedIfPossible own .resolve := by
  have failed : op.setFailedIfPossible.result = .failed := by
    rcases reached.1 with isUnknown | timedOut
    · simp [WinPipeOperation.setFailedIfPossible, WinPipeOperation.exchange, isUnknown]
    · simp [WinPipeOperation.setFailedIfPossible, WinPipeOperation.exchange, timedOut]
  simp only [AtStage, failed]
  exact reached.2

theorem rejoin_concat {content : Bytes} (more : content ≠ [] → pipe ≠ []) (message : Bytes) :
    rejoin content (pipe ++ [message]) = rejoin content pipe ++ [message] := by
  cases pipe with
  | nil =>
      have empty : content = [] := by
        by_contra some
        exact more some rfl
      rw [empty]
      rfl
  | cons first later => rfl

/-- The peer writes another message. -/
theorem AtStage.sends {stage : ReadStage} (message : Bytes) (reached : AtStage rest pipe op own stage) :
    AtStage (rest ++ [message]) (pipe ++ [message]) op own stage := by
  have reading {content : Bytes} (before : Reading rest pipe op own content) :
      Reading (rest ++ [message]) (pipe ++ [message]) op own content :=
    ⟨before.full, before.counted, by rw [rejoin_concat before.more, before.outstanding], by simp⟩
  have complete (before : Complete rest pipe op own) : Complete (rest ++ [message]) (pipe ++ [message]) op own := by
    obtain ⟨next, merged, short, boundary⟩ := before
    exact ⟨next, merged, short, by rw [boundary]; rfl⟩
  have tooLong (before : TooLong rest) : TooLong (rest ++ [message]) := by
    obtain ⟨next, later, boundary, long⟩ := before
    exact ⟨next, later ++ [message], by rw [boundary]; rfl, long⟩
  cases stage with
  | start => exact ⟨reached.1, by rw [reached.2]⟩
  | issue => exact ⟨reached.1, reached.2.imp fun _ => reading⟩
  | inFlight aborted => exact ⟨reached.1, reached.2.1, reached.2.2.imp fun _ => reading⟩
  | arrived status bytes =>
      cases status with
      | success =>
          obtain ⟨undecided, next, flat, counted, boundary⟩ := reached
          exact ⟨undecided, next, flat, counted, by rw [boundary]; rfl⟩
      | moreData =>
          obtain ⟨undecided, content, flat, counted, outstanding, next, later, rfl, more⟩ := reached
          exact ⟨undecided, content, flat, counted, by rw [outstanding]; rfl, next, later ++ [message], rfl, more⟩
      | operationAborted =>
          obtain ⟨none, nothing, timedOut, boundary⟩ := reached
          exact ⟨none, nothing, timedOut, by rw [boundary]⟩
      | other => exact reached.elim
  | succeed => exact ⟨reached.1, complete reached.2⟩
  | fail => exact ⟨reached.1, tooLong reached.2⟩
  | resolve =>
      simp only [AtStage] at reached ⊢
      split at reached
      next => exact complete reached
      next => exact tooLong reached
      next => exact ⟨reached.1, by rw [reached.2]⟩
      next => exact reached.elim
      next => exact reached.elim

/-- The timer does not take a result back, and nothing but the result depends on it. -/
theorem AtStage.timesOut {stage : ReadStage} (reached : AtStage rest pipe op own stage) :
    AtStage rest pipe op.setTimeoutIfPossible own stage := by
  by_cases isUnknown : op.result = .unknown
  · have timedOut : op.setTimeoutIfPossible = { op with result := .timeout } := if_pos isUnknown
    rw [timedOut]
    have reading {content : Bytes} (before : Reading rest pipe op own content) :
        Reading rest pipe { op with result := .timeout } own content :=
      ⟨before.full, before.counted, before.outstanding, before.more⟩
    cases stage with
    | start => exact ⟨⟨reached.1.nothing, reached.1.buffers, .inr rfl⟩, reached.2⟩
    | issue => exact ⟨.inr rfl, reached.2.imp fun _ => reading⟩
    | inFlight aborted =>
        exact ⟨.inr rfl, fun isAborted => ⟨(reached.2.1 isAborted).1, rfl⟩, reached.2.2.imp fun _ => reading⟩
    | arrived status bytes =>
        cases status with
        | success => exact ⟨.inr rfl, reached.2⟩
        | moreData => exact ⟨.inr rfl, reached.2⟩
        | operationAborted => exact ⟨reached.1, reached.2.1, rfl, reached.2.2.2⟩
        | other => exact reached.elim
    | succeed => exact ⟨.inr rfl, reached.2⟩
    | fail => exact ⟨.inr rfl, reached.2⟩
    | resolve => simp [AtStage, isUnknown] at reached
  · have same : op.setTimeoutIfPossible = op := if_neg isUnknown
    rwa [same]

end Stages

/-! ### What a reader has -/

/-- How many messages were delivered. -/
def taken (received : List ReadPromise) : Nat := received.countP fun promise => promise.result = .success

/-- A promise got the next message, or the next message is too long, or the operation timed out. -/
def Answered (sent : List Bytes) (before : List ReadPromise) (promise : ReadPromise) : Prop :=
  match promise.result with
  | .success => ∃ message, sent[taken before]? = some message ∧ message.length ≤ MaxTransferMessageSize ∧
      promise.buffer = some (message.map some)
  | .failed => promise.buffer = none ∧
      ∃ message, sent[taken before]? = some message ∧ MaxTransferMessageSize < message.length
  | .timeout => promise.buffer = none
  | .unknown | .canceled => False

theorem Answered.sends {sent : List Bytes} {before : List ReadPromise} {promise : ReadPromise}
    (answered : Answered sent before promise) (message : Bytes) : Answered (sent ++ [message]) before promise := by
  unfold Answered at answered ⊢
  split at answered
  next =>
    obtain ⟨next, entry, rest⟩ := answered
    exact ⟨next, Lib.Table.push_old entry, rest⟩
  next =>
    obtain ⟨none, next, entry, long⟩ := answered
    exact ⟨none, next, Lib.Table.push_old entry, long⟩
  next => exact answered
  next => exact answered
  next => exact answered

/-- The messages that nobody has got. -/
def rest (v : ReadView) : List Bytes := v.sent.drop (taken v.received)

structure Sound (v : ReadView) : Prop where
  sized : Sized v.buffers v.ops
  chunks : ∀ op ∈ v.ops, Chunks op.buffers
  fresh : ∀ (id : Nat) (op : WinPipeOperation), v.ops[id]? = some op → (∀ stage, v.working ≠ some (id, stage)) →
    id ∉ v.received.map ReadPromise.id → op.Fresh
  working : ∀ (id : Nat) (stage : ReadStage), v.working = some (id, stage) →
    id ∉ v.received.map ReadPromise.id ∧
      ∃ op own, v.ops[id]? = some op ∧ v.buffers[id]? = some own ∧ AtStage v.rest v.pipe op own stage
  free : v.working = none → v.halted = false → v.rest = v.pipe
  answered : ∀ (before : List ReadPromise) (promise : ReadPromise) (after : List ReadPromise),
    v.received = before ++ promise :: after → Answered v.sent before promise
  within : taken v.received ≤ v.sent.length
  timeouts : ∀ promise ∈ v.received, promise.result = .timeout →
    ∃ op, v.ops[promise.id]? = some op ∧ op.readBytes = 0

variable {v w : ReadView} {id : Nat} {stage stage' : ReadStage} {op op' : WinPipeOperation}
  {own own' : List ReadBuffer}

theorem rest_congr (sent : w.sent = v.sent) (received : w.received = v.received) : w.rest = v.rest := by
  rw [rest, rest, sent, received]

/-- The operation that is worked on goes on. -/
theorem Sound.advance (sound : v.Sound) (before : v.working = some (id, stage))
    (after : w.working = some (id, stage')) (sent : w.sent = v.sent) (received : w.received = v.received)
    (others : ∀ i ≠ id, w.ops[i]? = v.ops[i]?) (sized : Sized w.buffers w.ops) (found : w.ops[id]? = some op')
    (allocated : w.buffers[id]? = some own')
    (chunks : Chunks op'.buffers) (reached : AtStage v.rest w.pipe op' own' stage') : w.Sound := by
  obtain ⟨unresolved, -⟩ := sound.working id stage before
  rw [← rest_congr sent received] at reached
  rw [← received] at unresolved
  refine ⟨sized, ?_, ?_, ?_, ?_, ?_, ?_, ?_⟩
  · intro op listed
    obtain ⟨i, entry⟩ := List.getElem?_of_mem listed
    by_cases here : i = id
    · subst here
      cases found.symm.trans entry
      exact chunks
    · rw [others i here] at entry
      exact sound.chunks op (List.mem_of_getElem? entry)
  · intro i op entry idle waits
    have other : i ≠ id := fun same => idle stage' (same ▸ after)
    rw [others i other] at entry
    rw [received] at waits
    refine sound.fresh i op entry (fun stage'' working => ?_) waits
    cases before.symm.trans working
    exact other rfl
  · intro i stage'' working
    cases after.symm.trans working
    exact ⟨unresolved, op', own', found, allocated, reached⟩
  · intro none
    cases after.symm.trans none
  · rw [received, sent]
    exact sound.answered
  · rw [received, sent]
    exact sound.within
  · intro promise listed timedOut
    have other : promise.id ≠ id := fun same => unresolved (same ▸ List.mem_map_of_mem listed)
    rw [others _ other]
    exact sound.timeouts promise (received ▸ listed) timedOut

/-- The operation that is worked on, with its buffers. -/
theorem Sound.at_stage (sound : v.Sound) (working : v.working = some (id, stage)) (found : v.ops[id]? = some op) :
    ∃ own, v.buffers[id]? = some own ∧ own.map List.length = op.buffers ∧ Chunks op.buffers ∧
      AtStage v.rest v.pipe op own stage := by
  obtain ⟨-, op', own, found', allocated, reached⟩ := sound.working id stage working
  cases found.symm.trans found'
  obtain ⟨own', allocated', sizes⟩ := sound.sized.of_entry found
  cases allocated.symm.trans allocated'
  exact ⟨own, allocated, sizes, sound.chunks op (List.mem_of_getElem? found), reached⟩

theorem Sound.reach (sound : v.Sound) (working : v.working = some (id, stage)) (found : v.ops[id]? = some op)
    (allocated : v.buffers[id]? = some own) (reached : AtStage v.rest v.pipe op own stage') :
    (v.reach id stage').Sound :=
  sound.advance working rfl rfl rfl (fun _ _ => rfl) sound.sized found allocated
    (sound.chunks op (List.mem_of_getElem? found)) reached

/-- The operation is changed, but its buffers are not. -/
theorem Sound.update {update : WinPipeOperation → WinPipeOperation} (sound : v.Sound)
    (working : v.working = some (id, stage)) (found : v.ops[id]? = some op) (allocated : v.buffers[id]? = some own)
    (same : ∀ op, (update op).buffers = op.buffers) (reached : AtStage v.rest v.pipe (update op) own stage') :
    ((v.updateOp id update).reach id stage').Sound := by
  have chunks : Chunks (update op).buffers := same op ▸ sound.chunks op (List.mem_of_getElem? found)
  refine sound.advance working rfl rfl rfl (fun i other => ?_) (sound.sized.modify same) ?_ allocated chunks reached
  · simp [ReadView.reach, updateOp, other.symm]
  · simp [ReadView.reach, updateOp, found]

theorem head_rest (v : ReadView) : v.rest.head? = v.sent[taken v.received]? := List.head?_drop

/-- What the promise gets is right. -/
theorem answered_promised (reached : AtStage v.rest v.pipe op own .resolve) (id : Nat) :
    Answered v.sent v.received (op.promised id own) := by
  unfold Answered WinPipeOperation.promised
  simp only [AtStage] at reached
  rw [← head_rest]
  cases result : op.result with
  | success =>
      rw [result] at reached
      obtain ⟨message, merged, short, boundary⟩ := reached
      exact ⟨message, congrArg List.head? boundary, short, by simp [merged]⟩
  | failed =>
      rw [result] at reached
      obtain ⟨message, later, boundary, long⟩ := reached
      exact ⟨by simp, message, congrArg List.head? boundary, long⟩
  | timeout => simp
  | unknown => simp [result] at reached
  | canceled => simp [result] at reached

/-- One more promise. -/
theorem answered_concat {sent : List Bytes} {received : List ReadPromise} {promise : ReadPromise}
    (old : ∀ before promise after, received = before ++ promise :: after → Answered sent before promise)
    (new : Answered sent received promise) (before : List ReadPromise) (promise' : ReadPromise)
    (after : List ReadPromise) (split : received ++ [promise] = before ++ promise' :: after) :
    Answered sent before promise' := by
  rcases List.eq_nil_or_concat after with rfl | ⟨after, last, rfl⟩
  · obtain ⟨rfl, same⟩ := List.append_inj' split rfl
    cases same
    exact new
  · rw [List.concat_eq_append, ← List.cons_append, ← List.append_assoc] at split
    exact old before promise' after (List.append_inj' split rfl).1

theorem taken_concat (received : List ReadPromise) (promise : ReadPromise) :
    taken (received ++ [promise]) = taken received + if promise.result = .success then 1 else 0 := by
  simp [taken, List.countP_append, List.countP_cons]

/-- A message was delivered, or none. -/
theorem boundary_of_resolved (reached : AtStage v.rest v.pipe op own .resolve) (fine : op.result ≠ .failed)
    (id : Nat) :
    v.sent.drop (taken (v.received ++ [op.promised id own])) = v.pipe := by
  rw [taken_concat]
  simp only [AtStage] at reached
  change v.sent.drop (taken v.received + if op.result = .success then 1 else 0) = v.pipe
  cases result : op.result with
  | success =>
      rw [result] at reached
      obtain ⟨message, -, -, boundary⟩ := reached
      rw [if_pos rfl, ← List.drop_drop]
      exact congrArg (List.drop 1) boundary
  | failed => exact absurd result fine
  | timeout =>
      rw [result] at reached
      exact reached.2
  | unknown => simp [result] at reached
  | canceled => simp [result] at reached

theorem within_of_resolved (sound : v.Sound) (reached : AtStage v.rest v.pipe op own .resolve) (id : Nat) :
    taken (v.received ++ [op.promised id own]) ≤ v.sent.length := by
  have within := sound.within
  rw [taken_concat]
  split
  next delivered =>
    replace delivered : op.result = .success := delivered
    simp only [AtStage, delivered] at reached
    obtain ⟨message, -, -, boundary⟩ := reached
    have length := congrArg List.length boundary
    rw [rest, List.length_drop, List.length_cons] at length
    omega
  next => exact within

theorem Sound.resolves (sound : v.Sound) (working : v.working = some (id, .resolve)) (found : v.ops[id]? = some op)
    (allocated : v.buffers[id]? = some own) :
    Sound { v with
      working := none
      halted := op.result = .failed
      received := v.received ++ [op.promised id own] } := by
  obtain ⟨unresolved, op', own', found', allocated', reached⟩ := sound.working _ _ working
  cases found.symm.trans found'
  cases allocated.symm.trans allocated'
  refine ⟨sound.sized, sound.chunks, ?_, nofun, ?_, ?_, within_of_resolved sound reached id, ?_⟩
  · intro i other entry idle waits
    rw [List.map_append, List.mem_append, not_or] at waits
    refine sound.fresh i other entry (fun stage isWorking => ?_) waits.1
    cases working.symm.trans isWorking
    exact waits.2 (.head _)
  · intro _ goesOn
    exact boundary_of_resolved reached (by simpa using goesOn) id
  · exact answered_concat sound.answered (answered_promised reached id)
  · intro promise listed timedOut
    rcases List.mem_append.mp listed with earlier | new
    · exact sound.timeouts promise earlier timedOut
    · cases List.mem_singleton.mp new
      replace timedOut : op.result = .timeout := timedOut
      simp only [AtStage, timedOut] at reached
      exact ⟨op, found, reached.1⟩

theorem Sound.work (sound : v.Sound) (work : Work v w) : w.Sound := by
  cases work with
  | begins working found isUnknown =>
      obtain ⟨own, allocated, sizes, -, reached⟩ := sound.at_stage working found
      exact sound.reach working found allocated (reached.begins sizes)
  | skips working found isKnown =>
      obtain ⟨own, allocated, -, -, reached⟩ := sound.at_stage working found
      exact sound.reach working found allocated (reached.skips isKnown)
  | issues working =>
      obtain ⟨-, op, own, found, allocated, undecided, reading⟩ := sound.working _ _ working
      exact sound.reach working found allocated ⟨undecided, nofun, reading⟩
  | cancels working found isKnown nothing =>
      obtain ⟨own, allocated, -, -, undecided, -, reading⟩ := sound.at_stage working found
      exact sound.reach working found allocated
        ⟨undecided, fun _ => ⟨nothing, undecided.resolve_left isKnown⟩, reading⟩
  | @arrives id aborted own back read working allocated last taken =>
      obtain ⟨-, op, own', found, allocated', reached⟩ := sound.working _ _ working
      cases allocated.symm.trans allocated'
      have fits := (length_of_readMessage taken).1
      refine sound.advance working rfl rfl rfl (fun _ _ => rfl) (sound.sized.fillLast allocated last fits) found ?_
        (sound.chunks op (List.mem_of_getElem? found)) (reached.arrives last taken)
      simp [allocated]
  | aborts working =>
      obtain ⟨-, op, own, found, allocated, reached⟩ := sound.working _ _ working
      exact sound.reach working found allocated (AtStage.aborts reached)
  | concludes working ended =>
      obtain ⟨-, op, -, found, -⟩ := sound.working _ _ working
      obtain ⟨own, allocated, sizes, chunks, reached⟩ := sound.at_stage working found
      exact sound.update working found allocated (fun _ => rfl) (reached.concludes sizes chunks ended)
  | @grows id bytes op grown working found added =>
      obtain ⟨own, allocated, sizes, chunks, reached⟩ := sound.at_stage working found
      have counting : Chunks (op.addReadBytes bytes).buffers := chunks
      obtain ⟨chunks', size, pushed⟩ := addBufferChunk_eq_some counting added
      refine sound.advance working rfl rfl rfl (fun i other => List.getElem?_set_ne other.symm)
        (sound.sized.push found (congrArg WinPipeOperation.buffers pushed)) (Lib.Table.set_self found) ?_ chunks'
        (reached.grows sizes chunks added)
      simp [allocated]
  | exceeds working found full =>
      obtain ⟨own, allocated, sizes, -, reached⟩ := sound.at_stage working found
      exact sound.update working found allocated (fun _ => rfl) (reached.exceeds sizes full)
  | succeeds working =>
      obtain ⟨-, op, own, found, allocated, reached⟩ := sound.working _ _ working
      exact sound.update working found allocated (fun _ => rfl) (AtStage.succeeds reached)
  | fails working =>
      obtain ⟨-, op, own, found, allocated, reached⟩ := sound.working _ _ working
      exact sound.update working found allocated WinPipeOperation.setFailedIfPossible_buffers
        (AtStage.fails reached)
  | resolves working found allocated => exact sound.resolves working found allocated

theorem Sound.sends (sound : v.Sound) (message : Bytes) :
    Sound { v with pipe := v.pipe ++ [message], sent := v.sent ++ [message] } := by
  have rest : (v.sent ++ [message]).drop (taken v.received) = v.rest ++ [message] :=
    List.drop_append_of_le_length sound.within
  refine ⟨sound.sized, sound.chunks, sound.fresh, ?_, ?_, ?_, ?_, sound.timeouts⟩
  · intro id stage working
    obtain ⟨unresolved, op, own, found, allocated, reached⟩ := sound.working id stage working
    refine ⟨unresolved, op, own, found, allocated, ?_⟩
    rw [ReadView.rest, rest]
    exact reached.sends message
  · intro free goesOn
    exact rest.trans (congrArg (· ++ [message]) (sound.free free goesOn))
  · intro before promise after split
    exact (sound.answered before promise after split).sends message
  · rw [List.length_append]
    exact Nat.le_add_right_of_le sound.within

theorem Sound.creates (sound : v.Sound) :
    Sound { v with ops := v.ops ++ [{}], buffers := v.buffers ++ [[newBuffer 8192]] } := by
  refine ⟨?_, ?_, ?_, ?_, sound.free, sound.answered, sound.within, ?_⟩
  · refine sound.sized.concat ?_
    rw [List.map_singleton, newBuffer, List.length_replicate]
  · intro op listed
    rcases List.mem_append.mp listed with old | new
    · exact sound.chunks op old
    · cases List.mem_singleton.mp new
      exact chunks_first
  · intro id op found idle waits
    rcases Lib.Table.push_cases found with old | ⟨-, rfl⟩
    · exact sound.fresh id op old idle waits
    · exact ⟨rfl, rfl, .inl rfl⟩
  · intro id stage working
    obtain ⟨unresolved, op, own, found, allocated, reached⟩ := sound.working id stage working
    exact ⟨unresolved, op, own, Lib.Table.push_old found, Lib.Table.push_old allocated, reached⟩
  · intro promise listed timedOut
    obtain ⟨op, found, nothing⟩ := sound.timeouts promise listed timedOut
    exact ⟨op, Lib.Table.push_old found, nothing⟩

theorem Sound.starts (sound : v.Sound) (free : v.working = none) (goesOn : v.halted = false)
    (created : id < v.ops.length) (waits : id ∉ v.received.map ReadPromise.id) : (v.reach id .start).Sound := by
  have idle (i : Nat) (stage : ReadStage) : v.working ≠ some (i, stage) := by simp [free]
  refine ⟨sound.sized, sound.chunks, fun i op found _ => sound.fresh i op found (idle i), ?_, nofun, sound.answered,
    sound.within, sound.timeouts⟩
  intro i stage working
  cases working
  obtain ⟨op, found⟩ : ∃ op, v.ops[id]? = some op := ⟨_, List.getElem?_eq_getElem created⟩
  obtain ⟨own, allocated, -⟩ := sound.sized.of_entry found
  exact ⟨waits, op, own, found, allocated, sound.fresh id op found (idle id) waits, sound.free free goesOn⟩

theorem Sound.timesOut (sound : v.Sound) (id : Nat) : (v.updateOp id .setTimeoutIfPossible).Sound := by
  have buffers (op : WinPipeOperation) : op.setTimeoutIfPossible.buffers = op.buffers :=
    WinPipeOperation.exchange_buffers ..
  refine ⟨sound.sized.modify buffers, ?_, ?_, ?_, sound.free, sound.answered, sound.within, ?_⟩
  · intro op listed
    obtain ⟨i, entry⟩ := List.getElem?_of_mem listed
    obtain ⟨old, before, rfl⟩ := Lib.Table.modify_cases entry
    have chunks := sound.chunks old (List.mem_of_getElem? before)
    split
    · rwa [buffers]
    · exact chunks
  · intro i op entry idle waits
    obtain ⟨old, before, rfl⟩ := Lib.Table.modify_cases entry
    have fresh := sound.fresh i old before idle waits
    split
    · exact fresh.timesOut
    · exact fresh
  · intro i stage working
    obtain ⟨unresolved, op, own, found, allocated, reached⟩ := sound.working i stage working
    refine ⟨unresolved, if id = i then op.setTimeoutIfPossible else op, own, ?_, allocated, ?_⟩
    · simp [updateOp, List.getElem?_modify, found]
    · split
      · exact reached.timesOut
      · exact reached
  · intro promise listed timedOut
    obtain ⟨op, found, nothing⟩ := sound.timeouts promise listed timedOut
    refine ⟨if id = promise.id then op.setTimeoutIfPossible else op, ?_, ?_⟩
    · simp [updateOp, List.getElem?_modify, found]
    · split
      · exact (WinPipeOperation.exchange_readBytes ..).trans nothing
      · exact nothing

/-- An operation that timed out in the queue got nothing. -/
theorem Sound.resolvesAside (sound : v.Sound) (found : v.ops[id]? = some op)
    (waits : id ∉ v.received.map ReadPromise.id) (idle : ∀ stage, v.working ≠ some (id, stage))
    (isKnown : op.result ≠ .unknown) : Sound { v with received := v.received ++ [op.promised id own] } := by
  have fresh := sound.fresh id op found idle waits
  have timedOut := fresh.undecided.resolve_left isKnown
  have notDelivered : (op.promised id own).result ≠ .success := by
    rw [show (op.promised id own).result = .timeout from timedOut]
    decide
  have same : taken (v.received ++ [op.promised id own]) = taken v.received := by
    rw [taken_concat, if_neg notDelivered, Nat.add_zero]
  have rest : v.sent.drop (taken (v.received ++ [op.promised id own])) = v.rest := by rw [same]; rfl
  refine ⟨sound.sized, sound.chunks, ?_, ?_, ?_, ?_, ?_, ?_⟩
  · intro i other entry idle waits
    rw [List.map_append, List.mem_append, not_or] at waits
    exact sound.fresh i other entry idle waits.1
  · intro i stage working
    obtain ⟨unresolved, op', own', found', allocated', reached⟩ := sound.working i stage working
    refine ⟨?_, op', own', found', allocated', ?_⟩
    · rw [List.map_append, List.mem_append, not_or]
      refine ⟨unresolved, fun listed => ?_⟩
      obtain rfl : i = id := List.mem_singleton.mp listed
      exact idle stage working
    · rw [ReadView.rest, rest]
      exact reached
  · intro free goesOn
    exact rest.trans (sound.free free goesOn)
  · refine answered_concat sound.answered ?_
    unfold Answered
    rw [show (op.promised id own).result = .timeout from timedOut]
    exact if_neg (show op.result ≠ .success from notDelivered)
  · rw [same]
    exact sound.within
  · intro promise listed isTimeout
    rcases List.mem_append.mp listed with earlier | new
    · exact sound.timeouts promise earlier isTimeout
    · cases List.mem_singleton.mp new
      exact ⟨op, found, fresh.nothing⟩

theorem Sound.call (sound : v.Sound) (call : Call v w) : w.Sound := by
  cases call with
  | sends message => exact sound.sends message
  | creates => exact sound.creates
  | starts free goesOn created waits => exact sound.starts free goesOn created waits
  | timesOut id => exact sound.timesOut id
  | resolvesAside found _ waits idle isKnown => exact sound.resolvesAside found waits idle isKnown

theorem Sound.moves (sound : v.Sound) (moves : Moves v w) : w.Sound := by
  induction moves with
  | refl => exact sound
  | tail _ move ih => exact move.elim ih.work ih.call

end ReadView

end CommonRpc
