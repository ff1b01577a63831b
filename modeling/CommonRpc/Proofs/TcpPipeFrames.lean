/-
Module: CommonRpc.Proofs.TcpPipeFrames
Purpose: The framing of a `tcp_pipe_endpoint` survives every split of the transfer and every timeout. The
  write side puts on the stream the frames of the writes that became active, one after the other; the read
  side gives the k-th read that becomes active the k-th frame of the stream, and stops at a bad header. Both
  are instances of `OperationSpec`; the read side also needs that frames delimit themselves.
Trusted boundary: none
-/
import CommonRpc.Lib.Framing
import CommonRpc.Proofs.TcpPipeTransfer

namespace CommonRpc

open Lib Lib.BigEndian Lib.Framing PipeOperation

/-! ### Writing -/

namespace WriteOperation

def frame (op : WriteOperation) : Bytes := Framing.frame HeaderSize op.payload

/-- A write with a socket operation outstanding: the bytes moved are the start of its frame, and the buffer
    goes on from there. -/
structure Active (initial op : WriteOperation) (phase : OpPhase) (buffer : SocketBuffer) (moved : Bytes) :
    Prop where
  payload : op.payload = initial.payload
  moved : moved = op.frame.take op.bytesTransferred
  within : op.bytesTransferred ≤ op.frame.length
  header : phase = .header → op.bytesTransferred < HeaderSize ∧ buffer = .source op.getUnwrittenHeaderBuffer
  body : phase = .payload → HeaderSize ≤ op.bytesTransferred ∧ buffer = .source op.getUnwrittenPayloadBuffer

/-- The socket takes a beginning of the buffer. -/
def Fits (buffer : SocketBuffer) (bytes : Nat) (chunk : Bytes) : Prop :=
  bytes ≤ buffer.size ∧ chunk = TcpPipeEndpoint.sentOf bytes buffer

theorem drop_frame_of_le {op : WriteOperation} (inHeader : op.bytesTransferred ≤ HeaderSize) :
    op.frame.drop op.bytesTransferred = op.getUnwrittenHeaderBuffer ++ op.payload := by
  rw [frame, Framing.frame, List.drop_append_of_le_length (by simpa using inHeader)]
  rfl

theorem drop_frame_of_ge {op : WriteOperation} (inPayload : HeaderSize ≤ op.bytesTransferred) :
    op.frame.drop op.bytesTransferred = op.getUnwrittenPayloadBuffer := by
  rw [frame, Framing.frame, List.drop_append, List.drop_of_length_le (by simpa using inPayload),
    List.nil_append, length_toBytes]
  rfl

variable {initial op : WriteOperation} {phase phase' : OpPhase} {buffer : SocketBuffer} {moved chunk : Bytes}
  {bytes : Nat}

/-- The buffer is a beginning of what is missing of the frame. -/
theorem Active.buffer_eq (active : Active initial op phase buffer moved) :
    ∃ source, buffer = .source source ∧ source <+: op.frame.drop op.bytesTransferred := by
  cases phase with
  | header =>
      obtain ⟨inHeader, buffer⟩ := active.header rfl
      exact ⟨_, buffer, drop_frame_of_le (Nat.le_of_lt inHeader) ▸ List.prefix_append _ _⟩
  | payload =>
      obtain ⟨inPayload, buffer⟩ := active.body rfl
      exact ⟨_, buffer, drop_frame_of_ge inPayload ▸ List.prefix_rfl⟩

/-- The bytes after a report are again the start of the frame. -/
theorem Active.report (active : Active initial op phase buffer moved) (fits : Fits buffer bytes chunk) :
    moved ++ chunk = op.frame.take (op.bytesTransferred + bytes) ∧
      op.bytesTransferred + bytes ≤ op.frame.length := by
  obtain ⟨source, rfl, start⟩ := active.buffer_eq
  obtain ⟨room, rfl⟩ := fits
  have lengths := start.length_le
  rw [List.length_drop] at lengths
  have enough : bytes ≤ source.length := room
  refine ⟨?_, by have := active.within; omega⟩
  obtain ⟨rest, whole⟩ := start
  rw [List.take_add, ← whole, List.take_append_of_le_length enough, active.moved]
  rfl

end WriteOperation

/-- The bytes of a write are its frame. -/
def writeSpec : OperationSpec WriteOperation (fun _ => true) where
  Fresh op := op.bytesTransferred = 0
  Fits := WriteOperation.Fits
  Active := WriteOperation.Active
  Whole initial moved := moved = initial.frame
  BrokenOff initial moved := moved <+: initial.frame
  Answer _ buffer := buffer = none
  start {op} fresh := by
    refine ⟨rfl, by simp [fresh], by simp [fresh], fun _ => ⟨by simp [fresh, HeaderSize], rfl⟩, by simp⟩
  detach _ active := ⟨active.payload, active.moved, active.within, active.header, active.body⟩
  goOn {initial op phase phase' buffer moved bytes chunk} active fits goesOn := by
    obtain ⟨start, within⟩ := active.report fits
    refine ⟨active.payload, start, within, ?_, ?_⟩
    · rintro rfl
      cases phase with
      | header =>
          have incomplete : ¬ HeaderSize ≤ op.bytesTransferred + bytes := of_decide_eq_false goesOn
          exact ⟨Nat.lt_of_not_le incomplete, rfl⟩
      | payload => exact goesOn.elim
    · rintro rfl
      refine ⟨?_, rfl⟩
      cases phase with
      | header =>
          have completed : HeaderSize ≤ op.bytesTransferred + bytes := of_decide_eq_true goesOn.1
          exact completed
      | payload => exact Nat.le_trans (active.body rfl).1 (Nat.le_add_right _ _)
  finish {initial op buffer moved bytes chunk} active fits completed := by
    obtain ⟨start, within⟩ := active.report fits
    have total : op.bytesTransferred + bytes = op.frame.length := by
      have reached : WriteOperation.isPayloadCompleted (op.addBytes bytes) = true := completed
      simpa [WriteOperation.isPayloadCompleted, WriteOperation.addBytes, WriteOperation.bytesTotal,
        WriteOperation.frame] using reached
    refine ⟨?_, rfl⟩
    rw [start, total, List.take_length, WriteOperation.frame, active.payload]
    rfl
  breakOff {initial op phase buffer moved bytes chunk} active fits := by
    obtain ⟨start, -⟩ := active.report fits
    have same : initial.frame = op.frame := by rw [WriteOperation.frame, WriteOperation.frame, active.payload]
    rw [start, same]
    exact List.take_prefix _ _

/-! ### Reading -/

/-- The messages a reader accepts. -/
def ValidMessage (message : Bytes) : Prop := message.length ≠ 0 ∧ message.length ≤ MaxTransferMessageSize

theorem ValidMessage.short {message : Bytes} (valid : ValidMessage message) :
    message.length < 256 ^ HeaderSize := by
  have bound : MaxTransferMessageSize < 256 ^ HeaderSize := by decide
  exact Nat.lt_of_le_of_lt valid.2 bound

namespace ReadOperation

/-- The header announces a size that the reader accepts. -/
def GoodHeader (bytes : Bytes) : Prop :=
  ofBytes (bytes.take HeaderSize) ≠ 0 ∧ ofBytes (bytes.take HeaderSize) ≤ MaxTransferMessageSize

/-- A read with a socket operation outstanding. -/
structure Active (op : ReadOperation) (phase : OpPhase) (buffer : SocketBuffer) (moved : Bytes) : Prop where
  data : op.data = moved
  count : op.bytesRead = moved.length
  header : phase = .header → moved.length < HeaderSize ∧ op.payloadSize = none ∧
    buffer = .destination (HeaderSize - moved.length)
  body : phase = .payload → HeaderSize ≤ moved.length ∧ GoodHeader moved ∧
    op.payloadSize = some (ofBytes (moved.take HeaderSize)) ∧
    moved.length ≤ HeaderSize + ofBytes (moved.take HeaderSize) ∧
    buffer = .destination (ofBytes (moved.take HeaderSize) - (moved.length - HeaderSize))

def Fits (buffer : SocketBuffer) (bytes : Nat) (chunk : Bytes) : Prop :=
  chunk.length = bytes ∧ bytes ≤ buffer.size

variable {op : ReadOperation} {phase phase' : OpPhase} {buffer : SocketBuffer} {moved chunk : Bytes} {bytes : Nat}

/-- The operation after a report. -/
def report (op : ReadOperation) (bytes : Nat) (chunk : Bytes) : ReadOperation :=
  ReadOperation.addBytes { op with data := op.data ++ chunk } bytes

/-- The fields that a report only adds to. -/
theorem report_same (op : ReadOperation) (bytes : Nat) (chunk : Bytes) :
    (op.report bytes chunk).data = op.data ++ chunk ∧ (op.report bytes chunk).bytesRead = op.bytesRead + bytes := by
  simp only [report, addBytes]
  split <;> exact ⟨rfl, rfl⟩

/-- The payload buffer is allocated only when the header is complete and good. -/
theorem report_payloadSize_of_none (none : op.payloadSize = none) (bytes : Nat) (chunk : Bytes) :
    (op.report bytes chunk).payloadSize = Option.none ∨
      (op.bytesRead + bytes = HeaderSize ∧ GoodHeader (op.data ++ chunk) ∧
        (op.report bytes chunk).payloadSize = some (ofBytes ((op.data ++ chunk).take HeaderSize))) := by
  simp only [report, addBytes, messageSize, none, Option.isNone_none, true_and]
  split
  · next good => exact .inr ⟨good.1, good.2, rfl⟩
  · exact .inl rfl

theorem report_payloadSize_of_some {size : Nat} (there : op.payloadSize = some size) (bytes : Nat)
    (chunk : Bytes) : (op.report bytes chunk).payloadSize = some size := by
  simp [report, addBytes, there]

theorem take_append_chunk (long : HeaderSize ≤ moved.length) (chunk : Bytes) :
    (moved ++ chunk).take HeaderSize = moved.take HeaderSize := List.take_append_of_le_length long

theorem Active.report_header (active : Active op .header buffer moved) (fits : Fits buffer bytes chunk) :
    (op.report bytes chunk).data = moved ++ chunk ∧ (op.report bytes chunk).bytesRead = (moved ++ chunk).length ∧
      (moved ++ chunk).length ≤ HeaderSize := by
  obtain ⟨short, -, rfl⟩ := active.header rfl
  obtain ⟨data, count⟩ := op.report_same bytes chunk
  obtain ⟨length, room⟩ := fits
  have room' : bytes ≤ HeaderSize - moved.length := room
  refine ⟨by rw [data, active.data], by rw [count, active.count, List.length_append, length], ?_⟩
  rw [List.length_append]
  omega

theorem Active.report_body (active : Active op .payload buffer moved) (fits : Fits buffer bytes chunk) :
    (op.report bytes chunk).data = moved ++ chunk ∧ (op.report bytes chunk).bytesRead = (moved ++ chunk).length ∧
      HeaderSize ≤ (moved ++ chunk).length ∧ GoodHeader (moved ++ chunk) ∧
      (op.report bytes chunk).payloadSize = some (ofBytes ((moved ++ chunk).take HeaderSize)) ∧
      (moved ++ chunk).length ≤ HeaderSize + ofBytes ((moved ++ chunk).take HeaderSize) := by
  obtain ⟨long, good, size, within, rfl⟩ := active.body rfl
  obtain ⟨data, count⟩ := op.report_same bytes chunk
  obtain ⟨length, room⟩ := fits
  have room' : bytes ≤ ofBytes (moved.take HeaderSize) - (moved.length - HeaderSize) := room
  rw [GoodHeader, take_append_chunk long]
  refine ⟨by rw [data, active.data], by rw [count, active.count, List.length_append, length], ?_, good,
    report_payloadSize_of_some size bytes chunk, ?_⟩
  · rw [List.length_append]
    omega
  · rw [List.length_append]
    omega

/-- The bytes of a read that may have been broken off: no more than its header announces. -/
def BrokenOff (moved : Bytes) : Prop :=
  moved.length ≤ HeaderSize ∨
    (GoodHeader moved ∧ moved.length ≤ HeaderSize + ofBytes (moved.take HeaderSize))

theorem Active.goOn (active : Active op phase buffer moved) (fits : Fits buffer bytes chunk)
    (goesOn : Part.GoesOn isPayloadBufferValid (op.report bytes chunk) phase phase') :
    Active (op.report bytes chunk) phase' (Part.bufferFor phase' (op.report bytes chunk)) (moved ++ chunk) := by
  cases phase with
  | header =>
      obtain ⟨data, count, short⟩ := active.report_header fits
      have none := (active.header rfl).2.1
      have grown : op.bytesRead + bytes = (moved ++ chunk).length := (op.report_same bytes chunk).2 ▸ count
      rcases report_payloadSize_of_none none bytes chunk with still | ⟨complete, good, size⟩
      · cases phase' with
        | header =>
            have incomplete : ¬ HeaderSize ≤ (op.report bytes chunk).bytesRead := of_decide_eq_false goesOn
            rw [count] at incomplete
            refine ⟨data, count, fun _ => ⟨Nat.lt_of_not_le incomplete, still, ?_⟩, by simp⟩
            rw [← count]
            rfl
        | payload =>
            have valid : (op.report bytes chunk).payloadSize.isSome = true := goesOn.2
            simp [still] at valid
      · rw [grown] at complete
        cases phase' with
        | header =>
            have incomplete : ¬ HeaderSize ≤ (op.report bytes chunk).bytesRead := of_decide_eq_false goesOn
            rw [count] at incomplete
            omega
        | payload =>
            rw [active.data] at good size
            refine ⟨data, count, by simp, fun _ => ⟨by omega, good, size, by omega, ?_⟩⟩
            simp only [Part.bufferFor, payloadBuffer, size, Option.getD_some, count]
  | payload =>
      obtain ⟨data, count, long, good, size, within⟩ := active.report_body fits
      cases phase' with
      | header => exact goesOn.elim
      | payload =>
          refine ⟨data, count, by simp, fun _ => ⟨long, good, size, within, ?_⟩⟩
          simp only [Part.bufferFor, payloadBuffer, size, Option.getD_some, count]

theorem Active.finish (active : Active op .payload buffer moved) (fits : Fits buffer bytes chunk)
    (completed : isPayloadCompleted (op.report bytes chunk) = true) :
    ∃ message, ValidMessage message ∧ moved ++ chunk = Framing.frame HeaderSize message ∧
      resultBuffer (op.report bytes chunk) .success = some message := by
  obtain ⟨data, count, long, good, size, -⟩ := active.report_body fits
  have total : (moved ++ chunk).length = ofBytes ((moved ++ chunk).take HeaderSize) + HeaderSize := by
    simpa [isPayloadCompleted, size, count] using completed
  have announced : ofBytes ((moved ++ chunk).take HeaderSize) = (moved ++ chunk).length - HeaderSize := by omega
  refine ⟨(moved ++ chunk).drop HeaderSize, ?_, eq_frame long announced, ?_⟩
  · rw [ValidMessage, List.length_drop, ← announced]
    exact good
  · simp [resultBuffer, size, data]

theorem Active.breakOff (active : Active op phase buffer moved) (fits : Fits buffer bytes chunk) :
    BrokenOff (moved ++ chunk) := by
  cases phase with
  | header => exact .inl (active.report_header fits).2.2
  | payload =>
      obtain ⟨_, _, _, good, _, within⟩ := active.report_body fits
      exact .inr ⟨good, within⟩

theorem Active.detach {r : PipeOpRes} (failure : r ≠ .success) (active : Active op phase buffer moved) :
    Active (op.resolve r) phase buffer moved := by
  cases r with
  | success => exact absurd rfl failure
  | _ => exact ⟨active.data, active.count, active.header, active.body⟩

end ReadOperation

/-- The bytes of a read are a frame, and its answer is the message in it. -/
def readSpec : OperationSpec ReadOperation ReadOperation.isPayloadBufferValid where
  Fresh op := op = {}
  Fits := ReadOperation.Fits
  Active _ := ReadOperation.Active
  Whole _ moved := ∃ message, ValidMessage message ∧ moved = Framing.frame HeaderSize message
  BrokenOff _ := ReadOperation.BrokenOff
  Answer moved buffer := ∃ message, moved = Framing.frame HeaderSize message ∧ buffer = some message
  start fresh := by
    subst fresh
    exact ⟨rfl, rfl, fun _ => ⟨by decide, rfl, rfl⟩, by simp⟩
  detach := ReadOperation.Active.detach
  goOn := ReadOperation.Active.goOn
  finish active fits completed := by
    obtain ⟨message, valid, whole, answer⟩ := ReadOperation.Active.finish active fits completed
    exact ⟨⟨message, valid, whole⟩, message, whole, answer⟩
  breakOff := ReadOperation.Active.breakOff

/-! ### Both along a run -/

namespace TcpPipeEndpoint

variable {s t : TcpPipeEndpoint} {e : Event} {es : List Event}

/-- What holds of an endpoint at every moment, bytes included. -/
structure Framed (s : TcpPipeEndpoint) : Prop where
  ordered : s.Ordered
  writes : writeSpec.Tracked s.writes s.common.isOpen
  reads : readSpec.Tracked s.reads s.common.isOpen

theorem allowed_write (behaves : socketBehaves s e = true) :
    writeSpec.Allowed s.writes s.common.isOpen (writeAction e) := by
  cases e with
  | writeAsync message timed => rfl
  | written index ec bytes =>
      simp only [socketBehaves, Bool.and_eq_true, List.all_eq_true, decide_eq_true_eq] at behaves
      refine ⟨fun socketOp member => ⟨behaves.1 socketOp member, rfl⟩, fun aborted => ?_⟩
      simpa [aborted] using behaves.2
  | _ => trivial

theorem allowed_read (behaves : socketBehaves s e = true) :
    readSpec.Allowed s.reads s.common.isOpen (readAction e) := by
  cases e with
  | readAsync timed => rfl
  | received index ec chunk =>
      simp only [socketBehaves, Bool.and_eq_true, List.all_eq_true, decide_eq_true_eq] at behaves
      refine ⟨fun socketOp member => ⟨rfl, behaves.1 socketOp member⟩, fun aborted => ?_⟩
      simpa [aborted] using behaves.2
  | _ => trivial

theorem step_framed (framed : s.Framed) (stepped : behaved.step s e = some t) : t.Framed := by
  obtain ⟨behaves, stepped⟩ := behaved_step stepped
  have ordered := framed.ordered
  obtain ⟨write, read⟩ := ordered.steps stepped
  exact ⟨step_ordered ordered stepped,
    framed.writes.move ordered.writes ordered.consistent.pacedWrites (allowed_write behaves) write,
    framed.reads.move ordered.reads ordered.consistent.pacedReads (allowed_read behaves) read⟩

theorem run_framed (ran : behaved.run {} es = some s) : s.Framed :=
  Machine.run_invariant (P := Framed) step_framed
    ⟨ordered_start, OperationSpec.tracked_start, OperationSpec.tracked_start⟩ ran

/-! ### The stream of the write side -/

/-- The messages of the `write_async` calls, in order. -/
def messages (es : List Event) : List Bytes :=
  es.filterMap fun
    | .writeAsync message _ => some message
    | _ => none

/-- The frame of a write by its id. -/
def frameOf (w : OpSide WriteOperation) (id : Nat) : Bytes := (w.created[id]?).elim [] WriteOperation.frame

/-- Writes are numbered in the order of the calls that created them. -/
theorem created_sublist (ran : behaved.run {} es = some s) :
    (s.writes.created.map WriteOperation.payload).Sublist (messages es) := by
  refine Machine.run_induction
    (P := fun es s => (s.writes.created.map WriteOperation.payload).Sublist (messages es)) (by simp) ?_ ran
  intro es a e b reached before stepped
  have more : messages (es ++ [e]) = messages es ++ messages [e] := List.filterMap_append
  obtain ⟨write, -⟩ := (run_ordered reached).steps (behaved_step stepped).2
  rw [more]
  rcases OpSide.created_move write with same | ⟨op, started, created⟩
  · rw [show b.writes.created = a.writes.created from same]
    exact before.trans (List.sublist_append_left _ _)
  · rw [show b.writes.created = a.writes.created ++ [op] from created, List.map_append]
    apply before.append
    cases e with
    | writeAsync message timed =>
        cases started
        exact List.Sublist.refl _
    | _ => cases started

theorem movedBy_eq_frameOf (framed : s.Framed) {before after : List Nat} {id other : Nat}
    (order : s.writes.activated = before ++ id :: after) (member : other ∈ before) :
    s.writes.movedBy other = frameOf s.writes other := by
  obtain ⟨initial, known, whole⟩ := framed.writes.whole_of_later framed.ordered.writes
    framed.ordered.consistent.pacedWrites order member
  rw [frameOf, known]
  exact whole

/-- The bytes of an active write are a beginning of its frame. -/
theorem movedBy_within_frameOf (framed : s.Framed) {id : Nat} (member : id ∈ s.writes.activated) :
    s.writes.movedBy id <+: frameOf s.writes id := by
  rcases framed.writes.active_or_ended framed.ordered.writes framed.ordered.consistent.pacedWrites member with
    ⟨initial, op, phase, buffer, known, -, active⟩ | ⟨-, initial, known, whole | ⟨-, -, -, broken⟩⟩
  · have active : WriteOperation.Active initial op phase buffer (s.writes.movedBy id) := active
    rw [frameOf, known, active.moved, Option.elim_some, WriteOperation.frame, WriteOperation.frame, active.payload]
    exact List.take_prefix _ _
  · rw [frameOf, known]
    exact whole ▸ List.prefix_rfl
  · rw [frameOf, known]
    exact broken

/-- The frames before an active write, and what is there of its own. -/
theorem stream_eq (framed : s.Framed) {before after : List Nat} {id : Nat}
    (order : s.writes.activated = before ++ id :: after) :
    s.writes.stream = before.flatMap (frameOf s.writes) ++ (id :: after).flatMap s.writes.movedBy := by
  rw [framed.ordered.writes.inOrder, order, List.flatMap_append]
  congr 1
  exact List.flatMap_congr fun other member => movedBy_eq_frameOf framed order member

/-- Over every run in which the socket behaves: the bytes handed to the socket are a beginning of the
    concatenation of the frames of the writes that became the back operation, in the order of the calls; all
    these frames but the last are complete; a write that was resolved before it became active never becomes
    active; a write whose timer calls back in the queue gets `timeout`, leaves the list and never becomes active,
    and one whose timer calls back while it is active gets `timeout` and stays at the back; and a write that
    reported success is on the stream to its last byte. -/
theorem written_frames {es : List Event} {s : TcpPipeEndpoint} (ran : behaved.run {} es = some s) :
    (s.writes.created.map WriteOperation.payload).Sublist (messages es) ∧
    (∀ id, id ∈ s.writes.activated ↔ BecameActive writes es id) ∧
    s.writes.activated.Pairwise (· < ·) ∧
    s.writes.stream <+: s.writes.activated.flatMap (frameOf s.writes) ∧
    s.writes.activated.dropLast.flatMap (frameOf s.writes) <+: s.writes.stream ∧
    NeverAfter writes es s ∧
    TimeoutsKept writes .write es s ∧
    (∀ r ∈ s.writes.results, r.result = .success → ∃ before after,
      s.writes.activated = before ++ r.id :: after ∧
      (before ++ [r.id]).flatMap (frameOf s.writes) <+: s.writes.stream) := by
  have framed := run_framed ran
  have active := framed.ordered.writes
  refine ⟨created_sublist ran, fun id => isSide_writes.mem_activated_iff ran, active.increasing, ?_, ?_,
    isSide_writes.neverAfter ran, isSide_writes.timeoutsKept ran, ?_⟩
  · rcases List.eq_nil_or_concat' s.writes.activated with none | ⟨before, last, order⟩
    · rw [active.inOrder, none]
      exact List.prefix_rfl
    · have member : last ∈ s.writes.activated := by simp [order]
      have within := movedBy_within_frameOf framed member
      rw [stream_eq framed order, order, List.flatMap_append, List.prefix_append_right_inj,
        List.flatMap_singleton, List.flatMap_singleton]
      exact within
  · rcases List.eq_nil_or_concat' s.writes.activated with none | ⟨before, last, order⟩
    · simp [none]
    · rw [stream_eq framed order, order, List.dropLast_concat]
      exact List.prefix_append _ _
  · intro r resolved success
    obtain ⟨member, -, initial, known, whole, -⟩ := framed.writes.answered r resolved success
    obtain ⟨before, after, order⟩ := List.append_of_mem member
    refine ⟨before, after, order, ?_⟩
    have own : s.writes.movedBy r.id = frameOf s.writes r.id := by
      rw [frameOf, known]
      exact whole
    rw [stream_eq framed order, List.flatMap_append, List.flatMap_singleton, List.flatMap_cons, own,
      ← List.append_assoc]
    exact List.prefix_append _ _

/-- A queued write that times out leaves no trace, an active one that times out is completed, and the next
    one follows it. -/
theorem written_frames_timeouts :
    ∃ s, behaved.run {} [.writeAsync [7, 8] true, .writeAsync [9] true, .writeAsync [5] false, .written 0 .ok 3,
        .timerExpires 1, .timerHandler 1, .timerExpires 0, .timerHandler 0, .written 0 .ok 1, .written 0 .ok 1,
        .written 0 .ok 1, .written 0 .ok 4, .written 0 .ok 1] = some s ∧
      (s.writes.results = [⟨1, .timeout, none⟩, ⟨0, .timeout, none⟩, ⟨2, .success, none⟩] ∧
        s.writes.stream = [0, 0, 0, 2, 7, 8, 0, 0, 0, 1, 5] ∧ s.writes.activated = [0, 2]) ∧
      ∃ before after, s.writes.activated = before ++ 2 :: after ∧
        (before ++ [2]).flatMap (frameOf s.writes) <+: s.writes.stream := by
  refine Machine.exists_run ⟨_, rfl, rfl, rfl, rfl⟩ fun ran ⟨results, _, _⟩ => ?_
  exact (written_frames ran).2.2.2.2.2.2.2 ⟨2, .success, none⟩ (by simp [results]) rfl

/-! ### The stream of the read side -/

/-- The stream goes on with a header that announces no message, or too long a one. -/
def BadHeader (tail : Bytes) : Prop :=
  HeaderSize ≤ tail.length ∧
    (ofBytes (tail.take HeaderSize) = 0 ∨ MaxTransferMessageSize < ofBytes (tail.take HeaderSize))

/-- What is known of the bytes that arrived: they are a beginning of the frames of valid messages, after
    which there may be a bad header and anything else. -/
structure Incoming (r : OpSide ReadOperation) (fs : List Bytes) (tail : Bytes) : Prop where
  valid : ∀ f ∈ fs, ValidMessage f
  ending : tail = [] ∨ BadHeader tail
  arrived : r.stream <+: fs.flatMap (Framing.frame HeaderSize) ++ tail

theorem BadHeader.not_good {tail : Bytes} (bad : BadHeader tail) : ¬ ReadOperation.GoodHeader tail := by
  rintro ⟨nonzero, small⟩
  rcases bad.2 with zero | large
  · exact nonzero zero
  · exact Nat.lt_irrefl _ (Nat.lt_of_lt_of_le large small)

/-- No valid message can be read from what follows the frames. -/
theorem hopeless {tail : Bytes} (ending : tail = [] ∨ BadHeader tail) {g : Bytes} (valid : ValidMessage g) :
    ¬ Framing.frame HeaderSize g <+: tail := by
  intro start
  rcases ending with rfl | bad
  · have lengths := start.length_le
    simp [HeaderSize] at lengths
  · apply bad.not_good
    rw [ReadOperation.GoodHeader, ofBytes_take_of_start valid.short start]
    exact valid

theorem brokenOff_of_whole {moved g : Bytes} (valid : ValidMessage g)
    (whole : moved = Framing.frame HeaderSize g) : ReadOperation.BrokenOff moved := by
  have announced := ofBytes_take_of_start valid.short (whole ▸ List.prefix_rfl : _ <+: moved)
  refine .inr ⟨?_, ?_⟩
  · rw [ReadOperation.GoodHeader, announced]
    exact valid
  · rw [announced, whole, length_frame]

/-- The message in the bytes of a read. -/
def messageOf (r : OpSide ReadOperation) (id : Nat) : Bytes := (r.movedBy id).drop HeaderSize

section Position

variable {fs : List Bytes} {tail : Bytes} {before after : List Nat} {id : Nat}

/-- The reads that became active before another one have read the first messages of the stream, and the
    bytes of the other one come after those. -/
theorem position (framed : s.Framed) (incoming : Incoming s.reads fs tail)
    (order : s.reads.activated = before ++ id :: after) :
    before.map (messageOf s.reads) <+: fs ∧
      s.reads.movedBy id <+: (fs.drop before.length).flatMap (Framing.frame HeaderSize) ++ tail ∧
      s.reads.stream = (before.map (messageOf s.reads)).flatMap (Framing.frame HeaderSize) ++
        (s.reads.movedBy id ++ after.flatMap s.reads.movedBy) := by
  have whole : ∀ other ∈ before, ValidMessage (messageOf s.reads other) ∧
      s.reads.movedBy other = Framing.frame HeaderSize (messageOf s.reads other) := by
    intro other member
    obtain ⟨_, _, message, valid, bytes⟩ := framed.reads.whole_of_later framed.ordered.reads
      framed.ordered.consistent.pacedReads order member
    rw [messageOf, bytes, drop_frame]
    exact ⟨valid, rfl⟩
  have stream : s.reads.stream = (before.map (messageOf s.reads)).flatMap (Framing.frame HeaderSize) ++
      (s.reads.movedBy id ++ after.flatMap s.reads.movedBy) := by
    rw [framed.ordered.reads.inOrder, order, List.flatMap_append, List.flatMap_cons, List.flatMap_map]
    congr 1
    exact List.flatMap_congr fun other member => (whole other member).2
  have readOnes : ∀ g ∈ before.map (messageOf s.reads), ValidMessage g := by
    intro g member
    obtain ⟨other, inBefore, rfl⟩ := List.mem_map.mp member
    exact (whole other inBefore).1
  obtain ⟨messages, rest⟩ := frames_start (fun _ => ValidMessage.short) readOnes incoming.valid
    (fun _ => hopeless incoming.ending) (stream ▸ incoming.arrived)
  rw [List.length_map] at rest
  exact ⟨messages, (List.prefix_append _ _).trans rest, stream⟩

/-- A read whose bytes are a frame has the message of its position. -/
theorem message_of_whole (framed : s.Framed) (incoming : Incoming s.reads fs tail)
    (order : s.reads.activated = before ++ id :: after) {g : Bytes} (valid : ValidMessage g)
    (whole : s.reads.movedBy id = Framing.frame HeaderSize g) : fs[before.length]? = some g := by
  obtain ⟨-, start, -⟩ := position framed incoming order
  rw [whole] at start
  have first := frame_start (fun _ => ValidMessage.short) valid
    (fun f member => incoming.valid f (List.mem_of_mem_drop member)) (fun _ => hopeless incoming.ending) start
  rwa [List.head?_drop] at first

/-- The bytes of a read are no more than its header announces. -/
theorem brokenOff_movedBy (framed : s.Framed) (member : id ∈ s.reads.activated) :
    ReadOperation.BrokenOff (s.reads.movedBy id) := by
  rcases framed.reads.active_or_ended framed.ordered.reads framed.ordered.consistent.pacedReads member with
    ⟨initial, op, phase, buffer, known, -, active⟩ | ⟨-, initial, known, ⟨g, valid, whole⟩ | ⟨-, -, -, broken⟩⟩
  · have active : ReadOperation.Active op phase buffer (s.reads.movedBy id) := active
    cases phase with
    | header => exact .inl (Nat.le_of_lt (active.header rfl).1)
    | payload =>
        obtain ⟨_, good, _, within, _⟩ := active.body rfl
        exact .inr ⟨good, within⟩
  · exact brokenOff_of_whole valid whole
  · exact broken

theorem within_message (framed : s.Framed) (incoming : Incoming s.reads fs tail)
    (order : s.reads.activated = before ++ id :: after) {f : Bytes} (there : fs[before.length]? = some f) :
    s.reads.movedBy id <+: Framing.frame HeaderSize f := by
  obtain ⟨-, start, -⟩ := position framed incoming order
  obtain ⟨inside, same⟩ := List.getElem?_eq_some_iff.mp there
  rw [List.drop_eq_getElem_cons inside, same, List.flatMap_cons, List.append_assoc] at start
  have member : id ∈ s.reads.activated := by simp [order]
  have bounded := brokenOff_movedBy framed member
  apply within_frame (incoming.valid f (List.mem_of_getElem? there)).short (List.prefix_append _ _) start
  exact bounded.imp_right And.right

theorem within_header (framed : s.Framed) (incoming : Incoming s.reads fs tail)
    (order : s.reads.activated = before ++ id :: after) (past : fs[before.length]? = none) :
    s.reads.movedBy id <+: tail.take HeaderSize := by
  have member : id ∈ s.reads.activated := by simp [order]
  obtain ⟨-, start, -⟩ := position framed incoming order
  rw [List.drop_eq_nil_of_le (List.getElem?_eq_none_iff.mp past), List.flatMap_nil, List.nil_append] at start
  rw [List.prefix_take_iff]
  refine ⟨start, ?_⟩
  rcases incoming.ending with rfl | bad
  · have lengths := start.length_le
    exact Nat.le_trans lengths (Nat.zero_le _)
  · rcases brokenOff_movedBy framed member with short | ⟨good, within⟩
    · exact short
    · -- A good header cannot be the bad one.
      by_contra long
      have same : (s.reads.movedBy id).take HeaderSize = tail.take HeaderSize := by
        obtain ⟨rest, whole⟩ := start
        rw [← whole, List.take_append_of_le_length (by omega)]
      rw [ReadOperation.GoodHeader, same] at good
      exact bad.not_good good

/-- On an open socket a read that has left the list has read the message of its position. -/
theorem message_of_unlisted (framed : s.Framed) (incoming : Incoming s.reads fs tail)
    (order : s.reads.activated = before ++ id :: after) (isOpen : s.common.isOpen = true)
    (unlisted : id ∉ s.reads.operations.map OperationData.id) :
    ∃ f, fs[before.length]? = some f ∧ s.reads.movedBy id = Framing.frame HeaderSize f := by
  have member : id ∈ s.reads.activated := by simp [order]
  obtain ⟨_, _, ⟨g, valid, whole⟩ | ⟨closed, _⟩⟩ := framed.reads.ended id member unlisted
  · exact ⟨g, message_of_whole framed incoming order valid whole, whole⟩
  · rw [isOpen] at closed
    cases closed

/-- A read that has the bad header is the end of the connection. -/
theorem closed_of_bad_header (framed : s.Framed) (incoming : Incoming s.reads fs tail)
    (order : s.reads.activated = before ++ id :: after) (past : fs[before.length]? = none)
    (complete : HeaderSize ≤ (s.reads.movedBy id).length) : s.common.isOpen = false := by
  have within := within_header framed incoming order past
  have bad : ¬ ReadOperation.GoodHeader (s.reads.movedBy id) := by
    have same : s.reads.movedBy id = tail.take HeaderSize := by
      refine within.eq_of_length_le (Nat.le_trans ?_ complete)
      exact List.length_take_le _ _
    rcases incoming.ending with rfl | bad
    · simp [same, HeaderSize] at complete
    · rw [ReadOperation.GoodHeader, same, List.take_take, Nat.min_self]
      exact bad.not_good
  have member : id ∈ s.reads.activated := by simp [order]
  rcases framed.reads.active_or_ended framed.ordered.reads framed.ordered.consistent.pacedReads member with
    ⟨initial, op, phase, buffer, known, -, active⟩ | ⟨-, initial, known, ⟨g, valid, whole⟩ | ⟨closed, -⟩⟩
  · have active : ReadOperation.Active op phase buffer (s.reads.movedBy id) := active
    cases phase with
    | header => exact absurd (active.header rfl).1 (Nat.not_lt_of_le complete)
    | payload => exact absurd (active.body rfl).2.1 bad
  · rw [message_of_whole framed incoming order valid whole] at past
    cases past
  · exact closed

end Position

/-- A place in a list splits it. -/
theorem split_at {α : Type} {l : List α} {k : Nat} {x : α} (there : l[k]? = some x) :
    ∃ before after, l = before ++ x :: after ∧ before.length = k := by
  obtain ⟨inside, rfl⟩ := List.getElem?_eq_some_iff.mp there
  refine ⟨l.take k, l.drop (k + 1), ?_, by simp; omega⟩
  rw [← List.drop_eq_getElem_cons inside, List.take_append_drop]

/-- The bytes that arrived, from the frames of the stream and the last read. -/
theorem length_stream (framed : s.Framed) {fs : List Bytes} {tail : Bytes} (incoming : Incoming s.reads fs tail) :
    s.reads.stream.length ≤ (fs.flatMap (Framing.frame HeaderSize)).length + HeaderSize ∧
      ((fs.flatMap (Framing.frame HeaderSize)).length + HeaderSize ≤ s.reads.stream.length →
        s.common.isOpen = false) := by
  rcases List.eq_nil_or_concat' s.reads.activated with none | ⟨before, last, order⟩
  · have empty : s.reads.stream = [] := by rw [framed.ordered.reads.inOrder, none, List.flatMap_nil]
    simp [empty, HeaderSize]
  · obtain ⟨⟨more, frames⟩, -, stream⟩ := position framed incoming order
    have place : before.length = (before.map (messageOf s.reads)).length := by simp
    rw [List.flatMap_nil, List.append_nil] at stream
    cases more with
    | nil =>
        have past : fs[before.length]? = none := by
          rw [← frames, List.append_nil, place, List.getElem?_length]
        have short := (within_header framed incoming order past).length_le
        have header := List.length_take_le HeaderSize tail
        rw [List.append_nil] at frames
        rw [stream, frames, List.length_append]
        refine ⟨by omega, fun complete => ?_⟩
        exact closed_of_bad_header framed incoming order past (by omega)
    | cons f rest =>
        have there : fs[before.length]? = some f := by
          rw [← frames, place, List.getElem?_append_right (Nat.le_refl _), Nat.sub_self, List.getElem?_cons_zero]
        have within := (within_message framed incoming order there).length_le
        rw [stream, ← frames, List.flatMap_append, List.flatMap_cons]
        simp only [List.length_append] at within ⊢
        have header : 0 < HeaderSize := by decide
        exact ⟨by omega, fun complete => by omega⟩

/-- Over every run in which the socket behaves, with the frames of valid messages arriving, after which there
    may be a bad header: the k-th read that becomes the back operation takes bytes of the k-th frame only, and
    all of it if it has left the list of an open endpoint; a read that reported success has the message of its
    frame; a read that never became active, or was resolved before, takes no byte; a read whose timer calls back in
    the queue gets `timeout`, leaves the list and never becomes active, and one whose timer calls back while it is
    active gets `timeout` and stays at the back, where it uses up its frame; and of a bad header no more than the
    header is read, after which the endpoint is closed. -/
theorem read_frames {es : List Event} {s : TcpPipeEndpoint} (ran : behaved.run {} es = some s)
    {fs : List Bytes} {tail : Bytes} (incoming : Incoming s.reads fs tail) :
    (∀ id, id ∈ s.reads.activated ↔ BecameActive reads es id) ∧
    s.reads.activated.Pairwise (· < ·) ∧
    (∀ (k id : Nat), s.reads.activated[k]? = some id →
      (∀ f, fs[k]? = some f → s.reads.movedBy id <+: Framing.frame HeaderSize f) ∧
      (fs[k]? = none → s.reads.movedBy id <+: tail.take HeaderSize) ∧
      (s.common.isOpen = true → id ∉ s.reads.operations.map OperationData.id →
        ∃ f, fs[k]? = some f ∧ s.reads.movedBy id = Framing.frame HeaderSize f)) ∧
    (∀ r ∈ s.reads.results, r.result = .success →
      ∃ (k : Nat) (f : Bytes), s.reads.activated[k]? = some r.id ∧ fs[k]? = some f ∧ r.buffer = some f ∧
        s.reads.movedBy r.id = Framing.frame HeaderSize f) ∧
    (∀ id, id ∉ s.reads.activated → s.reads.movedBy id = []) ∧
    NeverAfter reads es s ∧
    TimeoutsKept reads .read es s ∧
    s.reads.stream.length ≤ (fs.flatMap (Framing.frame HeaderSize)).length + HeaderSize ∧
    ((fs.flatMap (Framing.frame HeaderSize)).length + HeaderSize ≤ s.reads.stream.length →
      s.common.isOpen = false) := by
  have framed := run_framed ran
  have active := framed.ordered.reads
  refine ⟨fun id => isSide_reads.mem_activated_iff ran, active.increasing, ?_, ?_,
    fun id never => OpSide.movedBy_eq_nil active never, isSide_reads.neverAfter ran,
    isSide_reads.timeoutsKept ran, length_stream framed incoming⟩
  · intro k id there
    obtain ⟨before, after, order, rfl⟩ := split_at there
    exact ⟨fun f message => within_message framed incoming order message,
      fun past => within_header framed incoming order past,
      fun isOpen unlisted => message_of_unlisted framed incoming order isOpen unlisted⟩
  · intro r resolved success
    obtain ⟨member, -, initial, -, ⟨g, valid, whole⟩, message, bytes, buffer⟩ :=
      framed.reads.answered r resolved success
    obtain ⟨before, after, order⟩ := List.append_of_mem member
    have same : message = g := by
      rw [← drop_frame (w := HeaderSize) message, ← bytes, whole, drop_frame]
    refine ⟨before.length, g, ?_, message_of_whole framed incoming order valid whole, same ▸ buffer, whole⟩
    rw [order, List.getElem?_append_right (Nat.le_refl _), Nat.sub_self, List.getElem?_cons_zero]

/-- A read that times out in the queue takes nothing, an active one that times out uses up the first frame, and
    the next read gets the second one; then a header announces zero bytes. -/
theorem read_frames_timeout :
    ∃ s, behaved.run {} [.readAsync true, .readAsync true, .readAsync false, .readAsync false,
        .received 0 .ok [0, 0], .timerExpires 1, .timerHandler 1, .timerExpires 0, .timerHandler 0,
        .received 0 .ok [0, 1], .received 0 .ok [7], .received 0 .ok [0, 0, 0, 2], .received 0 .ok [8],
        .received 0 .ok [9], .received 0 .ok [0, 0, 0], .received 0 .ok [0]] = some s ∧
      (s.reads.results =
          [⟨1, .timeout, none⟩, ⟨0, .timeout, none⟩, ⟨2, .success, some [8, 9]⟩, ⟨3, .failed, none⟩] ∧
        s.reads.activated = [0, 2, 3] ∧ s.reads.movedBy 0 = [0, 0, 0, 1, 7] ∧
        s.reads.stream = [0, 0, 0, 1, 7, 0, 0, 0, 2, 8, 9, 0, 0, 0, 0]) ∧
      s.reads.movedBy 1 = [] ∧ s.common.isOpen = false := by
  refine Machine.exists_run ⟨_, rfl, rfl, rfl, rfl, rfl⟩ fun {s} ran ⟨_, active, _, stream⟩ => ?_
  have incoming : Incoming s.reads [[7], [8, 9]] [0, 0, 0, 0] := by
    refine ⟨?_, .inr ⟨by decide, .inl (by decide)⟩, stream ▸ List.prefix_rfl⟩
    intro f member
    rcases List.mem_pair.mp member with rfl | rfl
    · exact ⟨by decide, by decide⟩
    · exact ⟨by decide, by decide⟩
  obtain ⟨-, -, -, -, silent, -, -, -, closed⟩ := read_frames ran incoming
  exact ⟨silent 1 (by simp [active]), closed (by rw [stream]; decide)⟩

end TcpPipeEndpoint

end CommonRpc
