/-
Module: CommonRpc.Proofs.TcpPipeTransfer
Purpose: Which bytes of the stream belong to which operation, for either side of a `tcp_pipe_endpoint`. The
  bytes that went through the socket are, in order, those of the operations that became active, and
  operations become active in the order of the calls (`Activated`). What the bytes of one operation look
  like is the business of an `OperationSpec`; `Tracked` carries it along every run in which the socket
  reports what a socket can report.
Trusted boundary: none
-/
import CommonRpc.Proofs.TcpPipeEndpoint

namespace CommonRpc

open PipeOperation

namespace OpSide

variable {ω : Type} {s s' : OpSide ω}

/-- The bytes that went through the socket for one operation. -/
def movedBy (s : OpSide ω) (id : Nat) : Bytes :=
  (s.moved.filter fun entry => entry.1 = id).flatMap Prod.snd

/-- All bytes that went through the socket. -/
def stream (s : OpSide ω) : Bytes := s.moved.flatMap Prod.snd

/-! ### Operations become active in the order of the calls -/

structure Activated (s : OpSide ω) : Prop where
  increasing : s.activated.Pairwise (· < ·)
  below : ∀ id ∈ s.activated, id < s.nextOpId
  /-- The back operation is the last one that became active. -/
  back : ∀ data rest, s.operations = data :: rest → s.activated.getLast? = some data.id
  movedIn : ∀ entry ∈ s.moved, entry.1 ∈ s.activated
  inOrder : s.stream = s.activated.flatMap s.movedBy

theorem movedBy_eq_nil (activated : s.Activated) {id : Nat} (never : id ∉ s.activated) :
    s.movedBy id = [] := by
  have none : s.moved.filter (fun entry => entry.1 = id) = [] := by
    rw [List.filter_eq_nil_iff]
    intro entry member same
    exact never (by simpa using of_decide_eq_true same ▸ activated.movedIn entry member)
  rw [movedBy, none, List.flatMap_nil]

/-- Bytes that arrive are those of one operation. -/
theorem movedBy_append {owner : Nat} {chunk : Bytes} (moved : s'.moved = s.moved ++ [(owner, chunk)])
    (id : Nat) : s'.movedBy id = s.movedBy id ++ if owner = id then chunk else [] := by
  simp only [movedBy, moved, List.filter_append, List.flatMap_append]
  by_cases own : owner = id <;> simp [own]

theorem movedBy_congr (moved : s'.moved = s.moved) : s'.movedBy = s.movedBy := by
  funext id
  rw [movedBy, movedBy, moved]

/-- The last activated operation is not among the earlier ones. -/
theorem Activated.split (activated : s.Activated) {id : Nat} (last : s.activated.getLast? = some id) :
    ∃ before, s.activated = before ++ [id] ∧ id ∉ before ∧ ∀ other ∈ before, other < id := by
  obtain ⟨before, eq⟩ := List.getLast?_eq_some_iff.mp last
  have increasing := activated.increasing
  rw [eq, List.pairwise_append] at increasing
  refine ⟨before, eq, ?_, fun other member => increasing.2.2 other member id (by simp)⟩
  intro member
  exact Nat.lt_irrefl id (increasing.2.2 id member id (by simp))

/-- A queued operation comes after all that became active. -/
theorem Activated.lt_queued (activated : s.Activated) (paced : s.Paced) {back data : OperationData ω}
    {rest : List (OperationData ω)} (operations : s.operations = back :: rest) (member : data ∈ rest) :
    ∀ id ∈ s.activated, id < data.id := by
  obtain ⟨before, eq, -, earlier⟩ := activated.split (activated.back back rest operations)
  have later := paced.back_lt operations data member
  intro id active
  rw [eq, List.mem_append, List.mem_singleton] at active
  rcases active with old | rfl
  · exact Nat.lt_trans (earlier id old) later
  · exact later

/-- An operation that became active is the back one or has left the list. -/
theorem Activated.back_or_unlisted (activated : s.Activated) (paced : s.Paced) {back : OperationData ω}
    {rest : List (OperationData ω)} (operations : s.operations = back :: rest) {id : Nat}
    (member : id ∈ s.activated) :
    id = back.id ∨ id ∉ s.operations.map OperationData.id := by
  by_cases own : id = back.id
  · exact .inl own
  · refine .inr fun listed => ?_
    obtain ⟨data, inList, same⟩ := List.mem_map.mp listed
    rw [operations, List.mem_cons] at inList
    rcases inList with rfl | queued
    · exact own same.symm
    · exact Nat.lt_irrefl id (same ▸ activated.lt_queued paced operations queued id member)

/-- What was created stays known under its id. -/
theorem created_append {op : ω} (created : s'.created = s.created ++ [op]) {id : Nat} {initial : ω}
    (known : s.created[id]? = some initial) : s'.created[id]? = some initial := by
  obtain ⟨inside, _⟩ := List.getElem?_eq_some_iff.mp known
  rw [created, List.getElem?_append_left inside, known]

/-- No bytes move and the back operation, if there is one, stays. -/
theorem Activated.keep (activated : s.Activated) (same : s'.activated = s.activated)
    (moved : s'.moved = s.moved) (next : s.nextOpId ≤ s'.nextOpId)
    (back : ∀ data rest, s'.operations = data :: rest →
      ∃ old others, s.operations = old :: others ∧ old.id = data.id) : s'.Activated where
  increasing := same ▸ activated.increasing
  below id member := Nat.lt_of_lt_of_le (activated.below id (same ▸ member)) next
  back data rest operations := by
    obtain ⟨old, others, listed, id⟩ := back data rest operations
    rw [same, ← id]
    exact activated.back old others listed
  movedIn := by
    rw [same, moved]
    exact activated.movedIn
  inOrder := by
    rw [same, movedBy_congr moved, stream, moved]
    exact activated.inOrder

/-- Bytes move for the back operation. -/
theorem Activated.arrive (activated : s.Activated) {owner : OperationData ω} {others : List (OperationData ω)}
    {chunk : Bytes} (listed : s.operations = owner :: others) (same : s'.activated = s.activated)
    (moved : s'.moved = s.moved ++ [(owner.id, chunk)]) (next : s'.nextOpId = s.nextOpId)
    (back : ∀ data rest, s'.operations = data :: rest → data.id = owner.id) : s'.Activated := by
  have last := activated.back owner others listed
  obtain ⟨before, eq, apart, -⟩ := activated.split last
  refine ⟨same ▸ activated.increasing, ?_, ?_, ?_, ?_⟩
  · rw [same, next]
    exact activated.below
  · intro data rest operations
    rw [same, back data rest operations]
    exact last
  · intro entry member
    rw [same]
    rcases List.mem_append.mp (moved ▸ member) with old | new
    · exact activated.movedIn entry old
    · rw [List.mem_singleton.mp new, eq]
      simp
  · have earlier : before.flatMap s'.movedBy = before.flatMap s.movedBy := by
      apply List.flatMap_congr
      intro id member
      have ne : owner.id ≠ id := fun own => apart (own ▸ member)
      simp [movedBy_append moved, ne]
    have order := activated.inOrder
    rw [eq, List.flatMap_append] at order
    rw [same, eq, List.flatMap_append, earlier, List.flatMap_singleton, movedBy_append moved, if_pos rfl,
      stream, moved, List.flatMap_append, ← List.append_assoc]
    rw [List.flatMap_singleton] at order
    rw [← order]
    simp [stream]

/-- A later operation becomes active. -/
theorem Activated.activate (activated : s.Activated) {id : Nat} (same : s'.activated = s.activated ++ [id])
    (moved : s'.moved = s.moved) (later : ∀ other ∈ s.activated, other < id) (known : id < s'.nextOpId)
    (back : ∀ data rest, s'.operations = data :: rest → data.id = id) : s'.Activated := by
  have silent : s.movedBy id = [] := movedBy_eq_nil activated fun member => Nat.lt_irrefl id (later id member)
  constructor
  · rw [same, List.pairwise_append]
    refine ⟨activated.increasing, by simp, ?_⟩
    intro other member last isLast
    rw [List.mem_singleton.mp isLast]
    exact later other member
  · intro other member
    rw [same, List.mem_append, List.mem_singleton] at member
    rcases member with old | rfl
    · exact Nat.lt_trans (later other old) known
    · exact known
  · intro data rest operations
    rw [same, back data rest operations]
    simp
  · intro entry member
    rw [same]
    exact List.mem_append_left _ (activated.movedIn entry (moved ▸ member))
  · rw [same, List.flatMap_append, movedBy_congr moved, List.flatMap_singleton, silent, List.append_nil,
      stream, moved]
    exact activated.inOrder

variable [PipeOperation ω] {ready : ω → Bool} {o o' : Bool} {action : Part.Action ω}

theorem Activated.move (activated : s.Activated) (paced : s.Paced)
    (move : Part.Move ready s s' o o' action) : s'.Activated := by
  cases move with
  | unchanged side _ => exact side ▸ activated
  | refused _ side =>
      rw [side]
      exact activated.keep rfl rfl (Nat.le_refl _) fun data rest listed => ⟨data, rest, listed, rfl⟩
  | queued timerId _ _ _ busy side =>
      rw [side]
      refine activated.keep rfl rfl (Nat.le_succ _) ?_
      intro data rest listed
      cases operations : s.operations with
      | nil => exact absurd operations busy
      | cons back others =>
          rw [operations] at listed
          exact ⟨back, others, rfl, congrArg OperationData.id (List.cons.inj listed).1⟩
  | started timerId _ _ _ idle side =>
      rw [side]
      refine activated.activate rfl rfl activated.below (Nat.lt_succ_self _) ?_
      intro data rest listed
      rw [← (List.cons.inj listed).1]
  | ended _ _ _ _ _ operations _ _ _ side | finished _ _ _ _ _ operations _ _ _ _ _ side =>
      rw [side]
      exact activated.arrive operations rfl rfl rfl (by simp)
  | continued _ back rest _ _ operations _ _ _ _ side =>
      rw [side]
      refine activated.arrive operations rfl rfl rfl ?_
      intro data others listed
      rw [← (List.cons.inj listed).1, Part.reported_id]
  | @finishedNext ec bytes chunk socketOp back next rest _ operations _ _ _ _ _ side =>
      rw [side]
      -- The bytes of the finished operation come first; then the next operation becomes active.
      have arrived : Activated { Part.arrive s back (next :: rest) bytes (chunk socketOp.buffer) with
          operations := [] } := activated.arrive operations rfl rfl rfl (by simp)
      have known := paced.below next (by simp [operations])
      refine arrived.activate rfl rfl ?_ known ?_
      · exact activated.lt_queued paced operations (by simp)
      · intro data others listed
        rw [← (List.cons.inj listed).1]
  | timedOut back data rest _ operations _ _ _ side =>
      rw [side]
      refine activated.keep rfl rfl (Nat.le_refl _) ?_
      intro other others listed
      exact ⟨back, rest, operations, congrArg OperationData.id (List.cons.inj listed).1⟩
  | timedOutActive back rest _ operations _ _ side =>
      rw [side]
      refine activated.keep rfl rfl (Nat.le_refl _) ?_
      intro other others listed
      refine ⟨back, rest, operations, ?_⟩
      rw [← (List.cons.inj listed).1, Part.detached_id]

end OpSide

/-! ### The bytes of one operation -/

/-- What the bytes of an operation look like, from its creation to its end. The first argument of the
    predicates is the operation as it was created. -/
structure OperationSpec (ω : Type) [PipeOperation ω] (ready : ω → Bool) where
  /-- An operation as the calls create it. -/
  Fresh : ω → Prop
  /-- What the socket may report for a buffer: the count and the bytes. -/
  Fits : SocketBuffer → Nat → Bytes → Prop
  /-- An operation with a socket operation outstanding, and the bytes it has moved. -/
  Active : ω → ω → OpPhase → SocketBuffer → Bytes → Prop
  /-- The bytes of an operation that was finished. -/
  Whole : ω → Bytes → Prop
  /-- The bytes of an operation that may have been broken off. -/
  BrokenOff : ω → Bytes → Prop
  /-- The buffer a finished operation reports. -/
  Answer : Bytes → Buffer → Prop
  start : ∀ {op}, Fresh op → Active op op .header (headerBuffer op) []
  detach : ∀ {initial op phase buffer moved r}, r ≠ .success → Active initial op phase buffer moved →
    Active initial (resolve op r) phase buffer moved
  goOn : ∀ {initial op phase phase' buffer moved bytes chunk}, Active initial op phase buffer moved →
    Fits buffer bytes chunk → Part.GoesOn ready (addBytes (receive op chunk) bytes) phase phase' →
    Active initial (addBytes (receive op chunk) bytes) phase'
      (Part.bufferFor phase' (addBytes (receive op chunk) bytes)) (moved ++ chunk)
  finish : ∀ {initial op buffer moved bytes chunk}, Active initial op .payload buffer moved →
    Fits buffer bytes chunk → isPayloadCompleted (addBytes (receive op chunk) bytes) = true →
    Whole initial (moved ++ chunk) ∧
      Answer (moved ++ chunk) (resultBuffer (addBytes (receive op chunk) bytes) .success)
  breakOff : ∀ {initial op phase buffer moved bytes chunk}, Active initial op phase buffer moved →
    Fits buffer bytes chunk → BrokenOff initial (moved ++ chunk)

namespace OperationSpec

variable {ω : Type} [PipeOperation ω] {ready : ω → Bool} (spec : OperationSpec ω ready)

/-- The environment keeps to the contract of a socket: it reports what fits the buffer, and it aborts
    operations only when the socket is closed. -/
def Allowed (s : OpSide ω) (o : Bool) : Part.Action ω → Prop
  | .start op => spec.Fresh op
  | .socket ec bytes chunk =>
      (∀ socketOp ∈ s.outstanding, spec.Fits socketOp.buffer bytes (chunk socketOp.buffer)) ∧
        (ec = .operationAborted → o = false)
  | .other => True

/-- An operation that became active and left the list: its bytes are whole, unless the socket was closed
    over it. -/
def Ended (s : OpSide ω) (o : Bool) (id : Nat) : Prop :=
  ∃ initial, s.created[id]? = some initial ∧
    (spec.Whole initial (s.movedBy id) ∨
      (o = false ∧ s.operations = [] ∧ s.activated.getLast? = some id ∧ spec.BrokenOff initial (s.movedBy id)))

/-- An operation that reported success. -/
def Answered (s : OpSide ω) (r : OpResult) : Prop :=
  r.id ∈ s.activated ∧ r.id ∉ s.operations.map OperationData.id ∧
    ∃ initial, s.created[r.id]? = some initial ∧ spec.Whole initial (s.movedBy r.id) ∧
      spec.Answer (s.movedBy r.id) r.buffer

/-- What holds of a side at every moment. -/
structure Tracked (s : OpSide ω) (o : Bool) : Prop where
  fresh : ∀ op ∈ s.created, spec.Fresh op
  count : s.created.length = s.nextOpId
  queued : ∀ data ∈ s.operations.tail, s.created[data.id]? = some data.op
  active : ∀ socketOp back rest, s.outstanding = [socketOp] → s.operations = back :: rest →
    ∃ initial, s.created[back.id]? = some initial ∧
      spec.Active initial back.op socketOp.phase socketOp.buffer (s.movedBy back.id)
  ended : ∀ id ∈ s.activated, id ∉ s.operations.map OperationData.id → spec.Ended s o id
  answered : ∀ r ∈ s.results, r.result = .success → spec.Answered s r

variable {spec : OperationSpec ω ready} {s s' : OpSide ω} {o o' : Bool}

theorem tracked_start : spec.Tracked {} true := by
  constructor <;> simp

/-- The results of a failure are failures. -/
theorem result_of_mem_filterMap {r : PipeOpRes} {operations : List (OperationData ω)} {result : OpResult}
    (member : result ∈ operations.filterMap (Part.takePendingResult r)) : result.result = r := by
  obtain ⟨data, -, taken⟩ := List.mem_filterMap.mp member
  simp only [Part.takePendingResult] at taken
  split at taken
  · cases taken
  · cases taken
    rfl

theorem eq_of_mem_take {r : PipeOpRes} {data : OperationData ω} {result : OpResult}
    (member : result ∈ (Part.takePendingResult r data).toList) :
    result = ⟨data.id, r, resultBuffer data.op r⟩ := by
  simp only [Part.takePendingResult] at member
  split at member
  · cases member
  · exact List.mem_singleton.mp member

section Busy

variable {back : OperationData ω} {rest : List (OperationData ω)}

/-- While there is a back operation, the ones before it stay as they are. -/
theorem Tracked.ended_other (tracked : spec.Tracked s o) (activated : s.Activated) (paced : s.Paced)
    (operations : s.operations = back :: rest)
    (created : ∀ {id : Nat} {op : ω}, s.created[id]? = some op → s'.created[id]? = some op)
    (moved : ∀ {id}, id ≠ back.id → s'.movedBy id = s.movedBy id) {id : Nat} (member : id ∈ s.activated)
    (other : id ≠ back.id) : spec.Ended s' o' id := by
  have unlisted := (activated.back_or_unlisted paced operations member).resolve_left other
  obtain ⟨initial, known, bytes⟩ := tracked.ended id member unlisted
  rcases bytes with whole | ⟨_, idle, _⟩
  · exact ⟨initial, created known, .inl (moved other ▸ whole)⟩
  · rw [operations] at idle
    cases idle

theorem Tracked.answered_other (tracked : spec.Tracked s o) (activated : s.Activated)
    (operations : s.operations = back :: rest)
    (created : ∀ {id : Nat} {op : ω}, s.created[id]? = some op → s'.created[id]? = some op)
    (moved : ∀ {id}, id ≠ back.id → s'.movedBy id = s.movedBy id)
    (active : ∀ id ∈ s.activated, id ∈ s'.activated)
    (listed : ∀ id ∈ s'.operations.map OperationData.id,
      id ∈ s.operations.map OperationData.id ∨ id = s.nextOpId)
    {r : OpResult} (resolved : r ∈ s.results) (success : r.result = .success) : spec.Answered s' r := by
  obtain ⟨member, unlisted, initial, known, whole, answer⟩ := tracked.answered r resolved success
  have other : r.id ≠ back.id := by
    intro own
    exact unlisted (by rw [operations, own]; simp)
  refine ⟨active r.id member, ?_, initial, created known, moved other ▸ whole, moved other ▸ answer⟩
  intro inList
  rcases listed r.id inList with old | new
  · exact unlisted old
  · exact Nat.lt_irrefl _ (new ▸ activated.below r.id member)

end Busy

theorem created_last (tracked : spec.Tracked s o) {op : ω} (created : s'.created = s.created ++ [op]) :
    s'.created[s.nextOpId]? = some op := by
  rw [created, ← tracked.count, List.getElem?_concat_length]

/-- Nothing happens to a side but that the socket may be closed. -/
theorem Tracked.close (tracked : spec.Tracked s o) (closes : o' = true → o = true) : spec.Tracked s o' := by
  refine ⟨tracked.fresh, tracked.count, tracked.queued, tracked.active, ?_, tracked.answered⟩
  intro id member unlisted
  obtain ⟨initial, known, bytes⟩ := tracked.ended id member unlisted
  refine ⟨initial, known, bytes.imp_right ?_⟩
  rintro ⟨closed, rest⟩
  refine ⟨?_, rest⟩
  cases isOpen : o' with
  | false => rfl
  | true => exact absurd (closes isOpen) (by simp [closed])

theorem Tracked.refuse (tracked : spec.Tracked s o) (count : Nat) :
    spec.Tracked { s with refused := count } o :=
  ⟨tracked.fresh, tracked.count, tracked.queued, tracked.active, tracked.ended, tracked.answered⟩

/-- A call queues its operation. -/
theorem Tracked.queue (tracked : spec.Tracked s o) (activated : s.Activated) (paced : s.Paced)
    {op : ω} {timerId : Option Nat} (fresh : spec.Fresh op) (busy : s.operations ≠ []) :
    spec.Tracked { s with
      nextOpId := s.nextOpId + 1
      created := s.created ++ [op]
      operations := s.operations ++ [⟨s.nextOpId, op, timerId⟩] } o' := by
  cases operations : s.operations with
  | nil => exact absurd operations busy
  | cons back rest =>
      constructor
      · intro other member
        rcases List.mem_append.mp member with old | new
        · exact tracked.fresh other old
        · exact List.mem_singleton.mp new ▸ fresh
      · simp [tracked.count]
      · intro data member
        simp only [List.cons_append, List.tail_cons, List.mem_append, List.mem_singleton] at member
        rcases member with old | rfl
        · exact OpSide.created_append rfl (tracked.queued data (by simpa [operations] using old))
        · exact created_last tracked rfl
      · intro socketOp data others outstanding listed
        obtain ⟨rfl, -⟩ := List.cons.inj listed
        obtain ⟨initial, known, active⟩ := tracked.active socketOp back rest outstanding operations
        exact ⟨initial, OpSide.created_append rfl known, active⟩
      · intro id member unlisted
        refine tracked.ended_other activated paced operations ?_ ?_ member ?_
        · exact OpSide.created_append rfl
        · exact fun _ => rfl
        · rintro rfl
          simp at unlisted
      · intro r resolved success
        refine tracked.answered_other activated operations ?_ ?_ ?_ ?_ resolved success
        · exact OpSide.created_append rfl
        · exact fun _ => rfl
        · exact fun _ member => member
        · intro id listed
          rw [operations]
          simpa [or_assoc] using listed

/-- A call starts its operation on an open socket. -/
theorem Tracked.begin (tracked : spec.Tracked s true) (activated : s.Activated) {op : ω}
    {timerId : Option Nat} (fresh : spec.Fresh op) (idle : s.operations = []) :
    spec.Tracked { s with
      nextOpId := s.nextOpId + 1
      created := s.created ++ [op]
      operations := [⟨s.nextOpId, op, timerId⟩]
      activated := s.activated ++ [s.nextOpId]
      outstanding := [⟨s.nextOpId, .header, headerBuffer op⟩] } o' := by
  have silent : s.movedBy s.nextOpId = [] :=
    OpSide.movedBy_eq_nil activated fun member => Nat.lt_irrefl _ (activated.below _ member)
  refine ⟨?_, ?_, by simp, ?_, ?_, ?_⟩
  · intro other member
    rcases List.mem_append.mp member with old | new
    · exact tracked.fresh other old
    · exact List.mem_singleton.mp new ▸ fresh
  · simp [tracked.count]
  · intro socketOp back rest outstanding listed
    obtain ⟨rfl, -⟩ := List.cons.inj outstanding
    obtain ⟨rfl, -⟩ := List.cons.inj listed
    refine ⟨op, created_last tracked rfl, ?_⟩
    have active := spec.start fresh
    rwa [← silent] at active
  · intro id member unlisted
    have old : id ∈ s.activated := by
      rcases List.mem_append.mp member with old | new
      · exact old
      · exact absurd (List.mem_singleton.mp new) (by simpa using unlisted)
    obtain ⟨initial, known, bytes⟩ := tracked.ended id old (by simp [idle])
    rcases bytes with whole | ⟨closed, _⟩
    · exact ⟨initial, OpSide.created_append rfl known, .inl whole⟩
    · cases closed
  · intro r resolved success
    obtain ⟨member, -, initial, known, whole, answer⟩ := tracked.answered r resolved success
    refine ⟨List.mem_append_left _ member, ?_, initial, OpSide.created_append rfl known, whole, answer⟩
    have ne := Nat.ne_of_lt (activated.below r.id member)
    simpa using ne

section Arrive

variable {back : OperationData ω} {rest : List (OperationData ω)} {socketOp : SocketOp} {ec : ErrorCode}
  {bytes : Nat} {chunk : SocketBuffer → Bytes} {moved : Bytes}

/-- A report for the back operation keeps the side tracked if the rest of the handler leaves the queue and
    accounts for the back operation. -/
theorem Tracked.arrive (tracked : spec.Tracked s o) (activated : s.Activated) (paced : s.Paced)
    (operations : s.operations = back :: rest) (created : s'.created = s.created)
    (next : s'.nextOpId = s.nextOpId) (arrived : s'.moved = s.moved ++ [(back.id, moved)])
    (queue : ∀ data ∈ s'.operations.tail, data ∈ rest)
    (listed : ∀ id ∈ s'.operations.map OperationData.id, id ∈ s.operations.map OperationData.id)
    (earlier : ∀ id ∈ s.activated, id ∈ s'.activated)
    (later : ∀ id ∈ s'.activated, id ∈ s.activated ∨ id ∈ s'.operations.map OperationData.id)
    (active : ∀ socketOp data others, s'.outstanding = [socketOp] → s'.operations = data :: others →
      ∃ initial, s.created[data.id]? = some initial ∧
        spec.Active initial data.op socketOp.phase socketOp.buffer (s'.movedBy data.id))
    (ended : back.id ∉ s'.operations.map OperationData.id → spec.Ended s' o' back.id)
    (results : ∀ r ∈ s'.results, r.result = .success → r ∈ s.results ∨ spec.Answered s' r) :
    spec.Tracked s' o' := by
  have known : ∀ {id : Nat} {op : ω}, s.created[id]? = some op → s'.created[id]? = some op := by
    intro id op there
    rw [created, there]
  have same : ∀ {id : Nat}, id ≠ back.id → s'.movedBy id = s.movedBy id := by
    intro id other
    rw [OpSide.movedBy_append arrived, if_neg (Ne.symm other), List.append_nil]
  refine ⟨created ▸ tracked.fresh, ?_, ?_, ?_, ?_, ?_⟩
  · rw [created, next]
    exact tracked.count
  · intro data member
    exact known (tracked.queued data (by rw [operations]; exact queue data member))
  · intro socketOp data others outstanding list
    rw [created]
    exact active socketOp data others outstanding list
  · intro id member unlisted
    by_cases own : id = back.id
    · subst own
      exact ended unlisted
    · exact tracked.ended_other activated paced operations known same
        ((later id member).resolve_right unlisted) own
  · intro r resolved success
    rcases results r resolved success with old | new
    · exact tracked.answered_other activated operations known same earlier
        (fun id inList => .inl (listed id inList)) old success
    · exact new

/-- What the report says of the back operation. -/
theorem Tracked.back_active (tracked : spec.Tracked s o) (outstanding : s.outstanding = [socketOp])
    (operations : s.operations = back :: rest) (allowed : spec.Allowed s o (.socket ec bytes chunk)) :
    ∃ initial, s.created[back.id]? = some initial ∧
      spec.Active initial back.op socketOp.phase socketOp.buffer (s.movedBy back.id) ∧
      spec.Fits socketOp.buffer bytes (chunk socketOp.buffer) := by
  obtain ⟨initial, known, active⟩ := tracked.active socketOp back rest outstanding operations
  exact ⟨initial, known, active, allowed.1 socketOp (by simp [outstanding])⟩

/-- The back operation is finished: its bytes are whole, and so is its answer. -/
theorem Tracked.back_finished (tracked : spec.Tracked s o) (activated : s.Activated)
    (outstanding : s.outstanding = [socketOp]) (operations : s.operations = back :: rest)
    (allowed : spec.Allowed s o (.socket ec bytes chunk)) (payload : socketOp.phase = .payload)
    (completed : isPayloadCompleted (Part.reported back bytes (chunk socketOp.buffer)).op = true)
    (created : s'.created = s.created) (arrived : s'.moved = s.moved ++ [(back.id, chunk socketOp.buffer)])
    (earlier : ∀ id ∈ s.activated, id ∈ s'.activated)
    (unlisted : back.id ∉ s'.operations.map OperationData.id) :
    spec.Ended s' o' back.id ∧
      ∀ r ∈ (Part.takePendingResult .success (Part.reported back bytes (chunk socketOp.buffer))).toList,
        spec.Answered s' r := by
  obtain ⟨initial, known, active, fits⟩ := tracked.back_active outstanding operations allowed
  rw [payload] at active
  obtain ⟨whole, answer⟩ := spec.finish active fits completed
  have bytes_ : s'.movedBy back.id = s.movedBy back.id ++ chunk socketOp.buffer := by
    rw [OpSide.movedBy_append arrived, if_pos rfl]
  have there : s'.created[back.id]? = some initial := by rw [created, known]
  have active_ : back.id ∈ s'.activated :=
    earlier _ (List.mem_of_getLast? (activated.back back rest operations))
  rw [← bytes_] at whole answer
  refine ⟨⟨initial, there, .inl whole⟩, ?_⟩
  intro r member
  rw [eq_of_mem_take member]
  exact ⟨active_, unlisted, initial, there, whole, answer⟩

end Arrive

/-- In an allowed step a handler that ends everything leaves the socket closed. -/
theorem closed_of_ended {ec : ErrorCode} {bytes : Nat} {chunk : SocketBuffer → Bytes}
    (allowed : spec.Allowed s o (.socket ec bytes chunk))
    (closing : o' = false ∨ (ec = .operationAborted ∧ o' = o)) : o' = false := by
  rcases closing with closed | ⟨aborted, same⟩
  · exact closed
  · exact same.trans (allowed.2 aborted)

/-- No byte moves and the back operation stays; it may only lose its promise. -/
theorem Tracked.stay (tracked : spec.Tracked s o) (activated : s.Activated) (paced : s.Paced)
    {back back' : OperationData ω} {rest rest' : List (OperationData ω)}
    (operations : s.operations = back :: rest) (created : s'.created = s.created)
    (next : s'.nextOpId = s.nextOpId) (moved : s'.moved = s.moved) (same : s'.activated = s.activated)
    (outstanding : s'.outstanding = s.outstanding) (list : s'.operations = back' :: rest')
    (id : back'.id = back.id) (queue : rest' ⊆ rest)
    (detached : ∀ {initial phase buffer bytes}, spec.Active initial back.op phase buffer bytes →
      spec.Active initial back'.op phase buffer bytes)
    (results : ∀ r ∈ s'.results, r.result = .success → r ∈ s.results) : spec.Tracked s' o' := by
  have known : ∀ {id : Nat} {op : ω}, s.created[id]? = some op → s'.created[id]? = some op := by
    intro id op there
    rw [created, there]
  have still : ∀ {id : Nat}, id ≠ back.id → s'.movedBy id = s.movedBy id := by
    intro id _
    rw [OpSide.movedBy_congr moved]
  refine ⟨created ▸ tracked.fresh, ?_, ?_, ?_, ?_, ?_⟩
  · rw [created, next]
    exact tracked.count
  · intro data member
    rw [list] at member
    exact known (tracked.queued data (by rw [operations]; exact queue member))
  · intro socketOp data others issued listed
    rw [list] at listed
    obtain ⟨rfl, -⟩ := List.cons.inj listed
    rw [outstanding] at issued
    obtain ⟨initial, there, active⟩ := tracked.active socketOp back rest issued operations
    rw [id, OpSide.movedBy_congr moved]
    exact ⟨initial, known there, detached active⟩
  · intro id' member unlisted
    apply tracked.ended_other activated paced operations known still (same ▸ member)
    rintro rfl
    rw [list] at unlisted
    simp [id] at unlisted
  · intro r resolved success
    refine tracked.answered_other activated operations known still (fun _ member => same ▸ member) ?_
      (results r resolved success) success
    intro id' listed
    rw [list, List.map_cons, id] at listed
    rw [operations, List.map_cons]
    exact .inl (List.cons_subset_cons _ (List.map_subset _ queue) listed)

theorem Tracked.move {action : Part.Action ω} (tracked : spec.Tracked s o) (activated : s.Activated)
    (paced : s.Paced) (allowed : spec.Allowed s o action) (move : Part.Move ready s s' o o' action) :
    spec.Tracked s' o' := by
  cases move with
  | unchanged side closes => exact side ▸ tracked.close closes
  | refused same side =>
      rw [side, same]
      exact tracked.refuse _
  | queued timerId _ _ _ busy side =>
      rw [side]
      exact tracked.queue activated paced allowed busy
  | started timerId _ _ wasOpen idle side =>
      rw [side]
      exact (wasOpen ▸ tracked).begin activated allowed idle
  | ended socketOp back rest r outstanding operations _ failure closing side =>
      obtain ⟨initial, known, active, fits⟩ := tracked.back_active outstanding operations allowed
      have last := activated.back back rest operations
      rw [side]
      refine tracked.arrive activated paced operations rfl rfl rfl (by simp) (by simp)
        (fun _ member => member) (fun _ member => .inl member) (by simp) ?_ ?_
      · intro _
        refine ⟨initial, known, .inr ⟨closed_of_ended allowed closing, rfl, last, ?_⟩⟩
        rw [OpSide.movedBy_append (s := s) rfl, if_pos rfl]
        exact spec.breakOff active fits
      · intro result member success
        rcases List.mem_append.mp member with old | new
        · exact .inl old
        · exact absurd ((result_of_mem_filterMap new).symm.trans success) failure
  | continued socketOp back rest phase outstanding operations _ isOpen _ goesOn side =>
      obtain ⟨initial, known, active, fits⟩ := tracked.back_active outstanding operations allowed
      rw [side]
      refine tracked.arrive activated paced operations rfl rfl rfl ?_ ?_ (fun _ member => member)
        (fun _ member => .inl member) ?_ ?_ ?_
      · exact fun data member => member
      · intro id member
        rw [operations]
        simpa [Part.arrive] using member
      · intro next data others issued listed
        obtain ⟨rfl, -⟩ := List.cons.inj issued
        obtain ⟨rfl, -⟩ := List.cons.inj listed
        refine ⟨initial, known, ?_⟩
        rw [Part.reported_id, OpSide.movedBy_append (s := s) rfl, if_pos rfl]
        exact spec.goOn active fits goesOn
      · intro unlisted
        simp [Part.arrive] at unlisted
      · exact fun r member _ => .inl member
  | @finished ec bytes chunk socketOp back rest r outstanding operations _ _ failure payload completed side =>
      have created : s'.created = s.created := by rw [side]; rfl
      have arrived : s'.moved = s.moved ++ [(back.id, chunk socketOp.buffer)] := by rw [side]; rfl
      have same : s'.activated = s.activated := by rw [side]; rfl
      have idle : s'.operations = [] := by rw [side]
      obtain ⟨ended, answered⟩ := tracked.back_finished activated outstanding operations allowed payload
        completed created arrived (fun _ member => same ▸ member) (by simp [idle])
      refine tracked.arrive activated paced operations created (by rw [side]; rfl) arrived (by simp [idle])
        (by simp [idle]) (fun _ member => same ▸ member) (fun _ member => .inl (same ▸ member))
        (by simp [idle]) (fun _ => ended) ?_
      intro result member success
      rw [side, List.mem_append, List.mem_append] at member
      rcases member with (old | own) | others
      · exact .inl old
      · exact .inr (answered result own)
      · exact absurd ((result_of_mem_filterMap others).symm.trans success) failure
  | @finishedNext ec bytes chunk socketOp back next rest outstanding operations _ _ _ payload completed side =>
      have created : s'.created = s.created := by rw [side]; rfl
      have arrived : s'.moved = s.moved ++ [(back.id, chunk socketOp.buffer)] := by rw [side]; rfl
      have active : s'.activated = s.activated ++ [next.id] := by rw [side]
      have list : s'.operations = next :: rest := by rw [side]
      have later := activated.lt_queued paced operations (List.mem_cons_self ..)
      have silent : s.movedBy next.id = [] :=
        OpSide.movedBy_eq_nil activated fun member => Nat.lt_irrefl _ (later _ member)
      have first : back.id < next.id := paced.back_lt operations next (by simp)
      have unlisted : back.id ∉ s'.operations.map OperationData.id := by
        rw [list, List.mem_map]
        rintro ⟨data, member, same⟩
        exact Nat.lt_irrefl _ (same ▸ paced.back_lt operations data member)
      obtain ⟨ended, answered⟩ := tracked.back_finished activated outstanding operations allowed payload
        completed created arrived (fun _ member => active ▸ List.mem_append_left _ member) unlisted
      refine tracked.arrive activated paced operations created (by rw [side]; rfl) arrived ?_ ?_
        (fun _ member => active ▸ List.mem_append_left _ member) ?_ ?_ (fun _ => ended) ?_
      · intro data member
        rw [list] at member
        exact List.mem_cons_of_mem _ member
      · intro id member
        rw [list] at member
        rw [operations]
        exact List.mem_cons_of_mem _ member
      · intro id member
        rw [active, List.mem_append, List.mem_singleton] at member
        apply member.imp_right
        rintro rfl
        simp [list]
      · -- The next operation is as it was created, and none of its bytes has moved.
        intro issued data others outstanding' listed
        have known := tracked.queued next (by simp [operations])
        have fresh := tracked.fresh _ (List.mem_of_getElem? known)
        rw [list] at listed
        obtain ⟨rfl, -⟩ := List.cons.inj listed
        rw [side] at outstanding'
        obtain ⟨rfl, -⟩ := List.cons.inj outstanding'
        refine ⟨next.op, known, ?_⟩
        rw [OpSide.movedBy_append arrived, if_neg (Nat.ne_of_lt first), silent]
        exact spec.start fresh
      · intro r member _
        rw [side] at member
        exact (List.mem_append.mp member).imp_right (answered r)
  | timedOut back data rest r operations member failure same side =>
      have sub := (List.eraseP_sublist (p := fun other : OperationData ω => other.id = data.id) (l := rest)).subset
      rw [side]
      refine tracked.stay activated paced operations rfl rfl rfl rfl rfl rfl rfl sub id ?_
      intro result resolved success
      rcases List.mem_append.mp resolved with old | new
      · exact old
      · rw [eq_of_mem_take new] at success
        exact absurd success failure
  | timedOutActive back rest r operations failure same side =>
      rw [side]
      refine tracked.stay activated paced operations rfl rfl rfl rfl rfl rfl (Part.detached_id r back)
        (List.Subset.refl _) ?_ ?_
      · intro initial phase buffer bytes active
        unfold Part.detached
        split
        · exact active
        · exact spec.detach failure active
      · intro result resolved success
        rcases List.mem_append.mp resolved with old | new
        · exact old
        · rw [eq_of_mem_take new] at success
          exact absurd success failure

/-! ### Reading the invariant off -/

/-- The bytes of an operation are whole once another one has become active after it. -/
theorem Tracked.whole_of_later (tracked : spec.Tracked s o) (activated : s.Activated) (paced : s.Paced)
    {before after : List Nat} {id other : Nat} (order : s.activated = before ++ id :: after)
    (member : other ∈ before) :
    ∃ initial, s.created[other]? = some initial ∧ spec.Whole initial (s.movedBy other) := by
  have increasing := activated.increasing
  rw [order, List.pairwise_append] at increasing
  have active : other ∈ s.activated := by simp [order, member]
  have notLast : s.activated.getLast? ≠ some other := by
    intro last
    rw [order, List.getLast?_append_cons] at last
    exact Nat.lt_irrefl _ (increasing.2.2 other member other (List.mem_of_getLast? last))
  have unlisted : other ∉ s.operations.map OperationData.id := by
    cases operations : s.operations with
    | nil => simp
    | cons back rest =>
        have cases_ := activated.back_or_unlisted paced operations active
        rw [operations] at cases_
        apply cases_.resolve_left
        rintro rfl
        exact notLast (activated.back back rest operations)
  obtain ⟨initial, known, bytes⟩ := tracked.ended other active unlisted
  refine ⟨initial, known, bytes.resolve_right ?_⟩
  rintro ⟨-, -, last, -⟩
  exact notLast last

/-- An operation that became active is at work on the socket or has ended. -/
theorem Tracked.active_or_ended (tracked : spec.Tracked s o) (activated : s.Activated) (paced : s.Paced)
    {id : Nat} (member : id ∈ s.activated) :
    (∃ initial op phase buffer, s.created[id]? = some initial ∧ id ∈ s.operations.map OperationData.id ∧
      spec.Active initial op phase buffer (s.movedBy id)) ∨
    (id ∉ s.operations.map OperationData.id ∧ spec.Ended s o id) := by
  rcases paced.shape with ⟨-, operations⟩ | ⟨socketOp, back, rest, outstanding, operations, -⟩
  · have unlisted : id ∉ s.operations.map OperationData.id := by simp [operations]
    exact .inr ⟨unlisted, tracked.ended id member unlisted⟩
  · rcases activated.back_or_unlisted paced operations member with rfl | unlisted
    · obtain ⟨initial, known, active⟩ := tracked.active socketOp back rest outstanding operations
      exact .inl ⟨initial, _, _, _, known, by simp [operations], active⟩
    · exact .inr ⟨unlisted, tracked.ended id member unlisted⟩

end OperationSpec

/-! ### What stays true of a side for the rest of a run -/

namespace OpSide

variable {ω : Type} {s s' s'' : OpSide ω}

/-- The operation is at the back of the list. -/
def IsBack (s : OpSide ω) (id : Nat) : Prop := s.operations.head?.map OperationData.id = some id

/-- What a later state keeps of an earlier one. An operation that was resolved before it became active never
    becomes active. -/
structure Later (s s' : OpSide ω) : Prop where
  activated : s.activated ⊆ s'.activated
  results : s.results ⊆ s'.results
  silent : ∀ r ∈ s.results, r.id ∉ s.activated → r.id ∉ s'.activated

theorem Later.refl (s : OpSide ω) : s.Later s := ⟨List.Subset.refl _, List.Subset.refl _, fun _ _ never => never⟩

theorem Later.trans (first : s.Later s') (second : s'.Later s'') : s.Later s'' where
  activated := List.Subset.trans first.activated second.activated
  results := List.Subset.trans first.results second.results
  silent r resolved never := second.silent r (first.results resolved) (first.silent r resolved never)

/-- A step that activates nothing. -/
theorem Later.of_same (same : s'.activated = s.activated) (results : s.results ⊆ s'.results) : s.Later s' where
  activated := same ▸ List.Subset.refl _
  results := results
  silent _ _ never := same ▸ never

variable [PipeOperation ω] {ready : ω → Bool} {o o' : Bool} {action : Part.Action ω}

/-- A queued operation has no result yet. -/
theorem Accounted.not_resolved (accounted : s.Accounted) {back data : OperationData ω}
    {rest : List (OperationData ω)} (operations : s.operations = back :: rest) (member : data ∈ rest) :
    data.id ∉ s.results.map OpResult.id := by
  intro resolved
  have open_ := accounted.promised data (by simpa [operations] using member)
  have owes : data.id ∈ owed s.operations :=
    List.mem_flatMap.mpr ⟨data, by simp [operations, member], by simp [promise, open_]⟩
  have distinct := accounted.ids.nodup_iff.mpr List.nodup_range
  exact (List.nodup_append.mp distinct).2.2 _ resolved _ owes rfl

theorem later_move (accounted : s.Accounted) (move : Part.Move ready s s' o o' action) : s.Later s' := by
  cases move with
  | unchanged side _ => exact side ▸ Later.refl s
  | refused _ side | queued _ _ _ _ _ side =>
      rw [side]
      exact .of_same rfl (List.Subset.refl _)
  | started timerId _ _ _ _ side =>
      rw [side]
      refine ⟨List.subset_append_left _ _, List.Subset.refl _, ?_⟩
      intro r resolved never
      simp only [List.mem_append, List.mem_singleton, not_or]
      exact ⟨never, Nat.ne_of_lt (accounted.result_lt resolved)⟩
  | ended _ _ _ _ _ _ _ _ _ side | timedOut _ _ _ _ _ _ _ _ side | timedOutActive _ _ _ _ _ _ side =>
      rw [side]
      exact .of_same rfl (List.subset_append_left _ _)
  | continued _ _ _ _ _ _ _ _ _ _ side =>
      rw [side]
      exact .of_same rfl (List.Subset.refl _)
  | finished _ _ _ _ _ _ _ _ _ _ _ side =>
      rw [side]
      refine .of_same rfl ?_
      exact List.Subset.trans (List.subset_append_left _ _) (List.subset_append_left _ _)
  | finishedNext _ back next rest _ operations _ _ _ _ _ side =>
      rw [side]
      refine ⟨List.subset_append_left _ _, List.subset_append_left _ _, ?_⟩
      intro r resolved never
      simp only [List.mem_append, List.mem_singleton, not_or]
      refine ⟨never, fun same => ?_⟩
      exact accounted.not_resolved operations (List.mem_cons_self ..) (same ▸ List.mem_map_of_mem resolved)

/-- Only a call creates an operation. -/
theorem created_move (move : Part.Move ready s s' o o' action) :
    s'.created = s.created ∨ ∃ op, action = .start op ∧ s'.created = s.created ++ [op] := by
  cases move with
  | @queued op _ _ _ _ _ side | @started op _ _ _ _ _ side => exact .inr ⟨op, rfl, by rw [side]⟩
  | unchanged side _ | refused _ side | timedOut _ _ _ _ _ _ _ _ side | timedOutActive _ _ _ _ _ _ side =>
      exact .inl (by rw [side])
  | ended _ _ _ _ _ _ _ _ _ side | continued _ _ _ _ _ _ _ _ _ _ side
  | finished _ _ _ _ _ _ _ _ _ _ _ side | finishedNext _ _ _ _ _ _ _ _ _ _ _ side =>
      exact .inl (by rw [side]; rfl)

/-- An operation becomes active by coming to the back. -/
theorem isBack_of_activated (move : Part.Move ready s s' o o' action) {id : Nat} (active : id ∈ s'.activated) :
    id ∈ s.activated ∨ s'.IsBack id := by
  cases move with
  | unchanged side _ => exact .inl (side ▸ active)
  | refused _ side | queued _ _ _ _ _ side | ended _ _ _ _ _ _ _ _ _ side | continued _ _ _ _ _ _ _ _ _ _ side
  | finished _ _ _ _ _ _ _ _ _ _ _ side | timedOut _ _ _ _ _ _ _ _ side | timedOutActive _ _ _ _ _ _ side =>
      rw [side] at active
      exact .inl active
  | started _ _ _ _ _ side | finishedNext _ _ _ _ _ _ _ _ _ _ _ side =>
      rw [side] at active ⊢
      rcases List.mem_append.mp active with old | new
      · exact .inl old
      · exact .inr (by rw [List.mem_singleton.mp new]; rfl)

/-- The callback of its timer gives an operation `timeout`. Only the back operation stays listed, and goes on
    without its promise. -/
structure TimedOut (s s' : OpSide ω) (id : Nat) : Prop where
  result : ∃ r, s'.results = s.results ++ [r] ∧ r.id = id ∧ r.result = .timeout
  active : s.IsBack id → s'.operations.map OperationData.id = s.operations.map OperationData.id
  queued : ¬ s.IsBack id → s'.operations.map OperationData.id = (s.operations.map OperationData.id).erase id
  same : s'.activated = s.activated ∧ s'.moved = s.moved ∧ s'.outstanding = s.outstanding

/-- A listed operation without a result has its promise. -/
theorem promised_of_listed (paced : s.Paced) (accounted : s.Accounted) {data : OperationData ω}
    (listed : data ∈ s.operations) (waiting : data.id ∉ s.results.map OpResult.id) :
    isPromiseResolved data.op = false := by
  have known := accounted.ids.mem_iff.mpr (List.mem_range.mpr (paced.below data listed))
  have owes := (List.mem_append.mp known).resolve_left waiting
  obtain ⟨other, inList, own⟩ := List.mem_flatMap.mp owes
  have distinct : (s.operations.map OperationData.id).Nodup := paced.increasing.imp Nat.ne_of_lt
  cases resolved : isPromiseResolved other.op with
  | true => simp [promise, resolved] at own
  | false =>
      have same : data.id = other.id := by simpa [promise, resolved] using own
      rwa [List.inj_on_of_nodup_map distinct listed inList same]

theorem timedOut_onTimer {p : Part ω} {id : Nat} (paced : p.side.Paced) (accounted : p.side.Accounted)
    (isOpen : p.common.isOpen = true) (listed : id ∈ p.side.operations.map OperationData.id)
    (waiting : id ∉ p.side.results.map OpResult.id) : p.side.TimedOut (p.onTimer id).side id := by
  cases found : p.side.operations.find? fun data => data.id = id with
  | none =>
      obtain ⟨data, member, own⟩ := List.mem_map.mp listed
      exact absurd own (by simpa using List.find?_eq_none.mp found data member)
  | some data =>
      obtain rfl : data.id = id := by simpa using List.find?_some found
      have promised := promised_of_listed paced accounted (List.mem_of_find?_eq_some found) waiting
      have taken : Part.takePendingResult .timeout data =
          some ⟨data.id, .timeout, resultBuffer data.op .timeout⟩ := by
        simp [Part.takePendingResult, promised]
      simp only [Part.onTimer, found, isOpen, if_true, taken, Option.toList_some]
      split
      · next isBack =>
          refine ⟨⟨_, rfl, rfl, rfl⟩, fun _ => ?_, fun notBack => absurd isBack notBack, rfl, rfl, rfl⟩
          rw [List.map_map]
          apply List.map_congr_left
          intro other _
          simp only [Function.comp_apply]
          split <;> rfl
      · next notBack =>
          refine ⟨⟨_, rfl, rfl, rfl⟩, fun isBack => absurd isBack notBack, fun _ => ?_, rfl, rfl, rfl⟩
          rw [List.erase_eq_eraseP', List.eraseP_map]
          rfl

end OpSide

/-! ### Runs in which the socket behaves -/

namespace TcpPipeEndpoint

open Lib

/-- The contract of the socket: a report counts no more bytes than the buffer has, and operations are aborted
    only when the socket is closed. -/
def socketBehaves (s : TcpPipeEndpoint) : Event → Bool
  | .written _ ec bytes =>
      s.writes.outstanding.all (fun socketOp => bytes ≤ socketOp.buffer.size) &&
        (ec != .operationAborted || !s.common.isOpen)
  | .received _ ec chunk =>
      s.reads.outstanding.all (fun socketOp => chunk.length ≤ socketOp.buffer.size) &&
        (ec != .operationAborted || !s.common.isOpen)
  | _ => true

def behaved : Machine TcpPipeEndpoint Event := machine.restrict socketBehaves

/-- What holds of both sides at every moment. -/
structure Ordered (s : TcpPipeEndpoint) : Prop where
  consistent : s.Consistent
  writes : s.writes.Activated
  reads : s.reads.Activated

variable {s t : TcpPipeEndpoint} {e : Event} {es : List Event}

theorem ordered_start : Ordered {} where
  consistent := consistent_start
  writes := ⟨by simp, by simp, by simp, by simp, rfl⟩
  reads := ⟨by simp, by simp, by simp, by simp, rfl⟩

theorem Ordered.steps (ordered : s.Ordered) (stepped : step s e = some t) : Steps s t e :=
  step_steps ordered.consistent.pacedWrites ordered.consistent.pacedReads stepped

theorem step_ordered (ordered : s.Ordered) (stepped : step s e = some t) : t.Ordered := by
  obtain ⟨write, read⟩ := ordered.steps stepped
  exact ⟨step_consistent ordered.consistent stepped, ordered.writes.move ordered.consistent.pacedWrites write,
    ordered.reads.move ordered.consistent.pacedReads read⟩

theorem run_ordered (ran : behaved.run {} es = some s) : s.Ordered :=
  Machine.run_invariant (P := Ordered) step_ordered ordered_start (Machine.run_restrict ran)

theorem behaved_step (stepped : behaved.step s e = some t) : socketBehaves s e = true ∧ step s e = some t :=
  Machine.restrict_step.mp stepped

section Side

variable {ω : Type} [PipeOperation ω] {ready : ω → Bool} (side : TcpPipeEndpoint → OpSide ω)

/-- The operation was at the back of the list after some beginning of the run. -/
def BecameActive (es : List Event) (id : Nat) : Prop :=
  ∃ es₁ s₁, es₁ <+: es ∧ behaved.run {} es₁ = some s₁ ∧ (side s₁).IsBack id

/-- Since some beginning of the run with the operation resolved and never active, it did not become active. -/
def NeverAfter (es : List Event) (s : TcpPipeEndpoint) : Prop :=
  ∀ es₁ s₁, es₁ <+: es → behaved.run {} es₁ = some s₁ →
    ∀ r ∈ (side s₁).results, r.id ∉ (side s₁).activated → r.id ∉ (side s).activated

/-- At every moment of the run: a timer callback for an operation without a result gives it `timeout`, and if
    the operation was queued, it does not become active later. -/
def TimeoutsKept (tag : PipeSide) (es : List Event) (s : TcpPipeEndpoint) : Prop :=
  ∀ es₁ s₁ s₂ timerId timer id, es₁ ++ [.timerHandler timerId] <+: es → behaved.run {} es₁ = some s₁ →
    step s₁ (.timerHandler timerId) = some s₂ → s₁.common.timer.handle timerId = some (timer, some (tag, id)) →
    s₁.common.isOpen = true → id ∈ (side s₁).operations.map OperationData.id →
    id ∉ (side s₁).results.map OpResult.id →
    (side s₁).TimedOut (side s₂) id ∧ (¬ (side s₁).IsBack id → id ∉ (side s).activated)

/-- One of the two sides, with what is known of it. -/
structure IsSide (tag : PipeSide) (ready : ω → Bool) : Prop where
  paced : ∀ {s}, s.Ordered → (side s).Paced
  accounted : ∀ {s}, s.Ordered → (side s).Accounted
  activated : ∀ {s}, s.Ordered → (side s).Activated
  moves : ∀ {s e t}, s.Ordered → step s e = some t →
    ∃ action, Part.Move ready (side s) (side t) s.common.isOpen t.common.isOpen action
  start : (side {}).activated = []
  timer : ∀ {s t timerId timer id}, s.common.timer.handle timerId = some (timer, some (tag, id)) →
    step s (.timerHandler timerId) = some t →
    side t = (Part.onTimer id ⟨side s, { s.common with timer }⟩).side

variable {side} {tag : PipeSide}

theorem IsSide.later (isSide : IsSide side tag ready) {es es₁ : List Event} {s s₁ : TcpPipeEndpoint}
    (ran : behaved.run {} es = some s) (beginning : es₁ <+: es) (ran₁ : behaved.run {} es₁ = some s₁) :
    (side s₁).Later (side s) := by
  refine Machine.run_since (P := Ordered) (R := fun a b => (side a).Later (side b)) (fun a => .refl _)
    OpSide.Later.trans run_ordered ?_ ran beginning ran₁
  intro a e b ordered stepped
  obtain ⟨action, move⟩ := isSide.moves ordered (behaved_step stepped).2
  exact OpSide.later_move (isSide.accounted ordered) move

theorem IsSide.neverAfter (isSide : IsSide side tag ready) (ran : behaved.run {} es = some s) :
    NeverAfter side es s := by
  intro es₁ s₁ beginning ran₁
  exact (isSide.later ran beginning ran₁).silent

/-- The operations that became active are exactly those that were at the back at some moment. -/
theorem IsSide.mem_activated_iff (isSide : IsSide side tag ready) (ran : behaved.run {} es = some s) {id : Nat} :
    id ∈ (side s).activated ↔ BecameActive side es id := by
  constructor
  · refine Machine.run_induction (P := fun es s => id ∈ (side s).activated → BecameActive side es id) ?_ ?_ ran
    · intro active
      simp [isSide.start] at active
    · intro es a e b reached before stepped active
      obtain ⟨action, move⟩ := isSide.moves (run_ordered reached) (behaved_step stepped).2
      rcases OpSide.isBack_of_activated move active with old | isBack
      · obtain ⟨es₁, s₁, beginning, ran₁, back⟩ := before old
        exact ⟨es₁, s₁, beginning.trans (List.prefix_append _ _), ran₁, back⟩
      · refine ⟨es ++ [e], b, List.prefix_rfl, ?_, isBack⟩
        exact Machine.run_append_eq_some.mpr ⟨a, reached, Machine.run_cons_eq_some.mpr ⟨b, stepped, rfl⟩⟩
  · rintro ⟨es₁, s₁, beginning, ran₁, back⟩
    apply (isSide.later ran beginning ran₁).activated
    cases operations : (side s₁).operations with
    | nil => simp [OpSide.IsBack, operations] at back
    | cons data rest =>
        have last := (isSide.activated (run_ordered ran₁)).back data rest operations
        have same : data.id = id := by simpa [OpSide.IsBack, operations] using back
        exact same ▸ List.mem_of_getLast? last

/-- An operation that is listed and not at the back has not become active. -/
theorem IsSide.not_activated (isSide : IsSide side tag ready) (ordered : s.Ordered) {id : Nat}
    (listed : id ∈ (side s).operations.map OperationData.id) (notBack : ¬ (side s).IsBack id) :
    id ∉ (side s).activated := by
  intro active
  cases operations : (side s).operations with
  | nil => simp [operations] at listed
  | cons back rest =>
      rcases (isSide.activated ordered).back_or_unlisted (isSide.paced ordered) operations active with
        own | unlisted
      · exact notBack (by simp [OpSide.IsBack, operations, own])
      · exact unlisted listed

theorem IsSide.timeoutsKept (isSide : IsSide side tag ready) (ran : behaved.run {} es = some s) :
    TimeoutsKept side tag es s := by
  intro es₁ s₁ s₂ timerId timer id beginning ran₁ stepped handled isOpen listed waiting
  have ordered := run_ordered ran₁
  have timedOut : (side s₁).TimedOut (side s₂) id := by
    rw [isSide.timer handled stepped]
    exact OpSide.timedOut_onTimer (p := ⟨side s₁, { s₁.common with timer }⟩) (isSide.paced ordered)
      (isSide.accounted ordered) isOpen listed waiting
  refine ⟨timedOut, fun notBack => ?_⟩
  have ran₂ : behaved.run {} (es₁ ++ [.timerHandler timerId]) = some s₂ :=
    Machine.run_append_eq_some.mpr ⟨s₁, ran₁, Machine.run_cons_eq_some.mpr
      ⟨s₂, Machine.restrict_step.mpr ⟨rfl, stepped⟩, rfl⟩⟩
  obtain ⟨r, results, own, -⟩ := timedOut.result
  have silent := (isSide.later ran beginning ran₂).silent r (by simp [results])
  rw [own, timedOut.same.1] at silent
  exact silent (isSide.not_activated ordered listed notBack)

end Side

theorem isSide_writes : IsSide writes .write (fun _ => true) where
  paced ordered := ordered.consistent.pacedWrites
  accounted ordered := ordered.consistent.accountedWrites
  activated := Ordered.writes
  moves ordered stepped := ⟨_, (ordered.steps stepped).1⟩
  start := rfl
  timer handled stepped := by
    simp only [step, handled, Option.some.injEq] at stepped
    exact stepped ▸ rfl

theorem isSide_reads : IsSide reads .read ReadOperation.isPayloadBufferValid where
  paced ordered := ordered.consistent.pacedReads
  accounted ordered := ordered.consistent.accountedReads
  activated := Ordered.reads
  moves ordered stepped := ⟨_, (ordered.steps stepped).2⟩
  start := rfl
  timer handled stepped := by
    simp only [step, handled, Option.some.injEq] at stepped
    exact stepped ▸ rfl

end TcpPipeEndpoint

end CommonRpc
