/-
Module: CommonRpc.Lib.Framing
Purpose: Messages in a byte stream, each after its length in `w` big-endian bytes. Frames delimit themselves:
  a stream of frames can be cut in one way only, even if it goes on with something that is not a frame.
Trusted boundary: none
-/
import CommonRpc.Lib.BigEndian

namespace CommonRpc.Lib.Framing

open BigEndian

/-- A message after its length in `w` bytes. -/
def frame (w : Nat) (message : List UInt8) : List UInt8 := toBytes w message.length ++ message

variable {w : Nat}

@[simp] theorem length_frame (message : List UInt8) : (frame w message).length = w + message.length := by
  simp [frame]

theorem take_frame (message : List UInt8) : (frame w message).take w = toBytes w message.length := by
  rw [frame, List.take_left' (length_toBytes _ _)]

theorem drop_frame (message : List UInt8) : (frame w message).drop w = message := by
  rw [frame, List.drop_left' (length_toBytes _ _)]

/-- A header and as many bytes as it announces are a frame. -/
theorem eq_frame {bytes : List UInt8} (header : w ≤ bytes.length)
    (announced : ofBytes (bytes.take w) = bytes.length - w) : bytes = frame w (bytes.drop w) := by
  have width : (bytes.take w).length = w := by simp [header]
  have spelled := toBytes_ofBytes (bytes.take w)
  rw [width, announced] at spelled
  rw [frame, List.length_drop, spelled, List.take_append_drop]

/-- The header of a stream that starts with a frame announces its length. -/
theorem ofBytes_take_of_start {message stream : List UInt8} (short : message.length < 256 ^ w)
    (start : frame w message <+: stream) : ofBytes (stream.take w) = message.length := by
  obtain ⟨rest, rfl⟩ := start
  rw [List.take_append_of_le_length (by simp), take_frame, ofBytes_toBytes_of_lt short]

/-- What follows a frame is determined by the stream, and so is the message. -/
theorem frame_append_inj {f g x y : List UInt8} (shortF : f.length < 256 ^ w) (shortG : g.length < 256 ^ w)
    (same : frame w f ++ x = frame w g ++ y) : f = g ∧ x = y := by
  have lengths : f.length = g.length := by
    rw [← ofBytes_take_of_start shortF ⟨x, rfl⟩, same, ofBytes_take_of_start shortG ⟨y, rfl⟩]
  obtain ⟨frames, rest⟩ := List.append_inj same (by simp [lengths])
  exact ⟨by rw [← drop_frame (w := w) f, frames, drop_frame], rest⟩

/-- Frames read from a stream of frames are the frames of the stream, as long as what comes after them does
    not start with a frame. -/
theorem frames_start {P : List UInt8 → Prop} (short : ∀ f, P f → f.length < 256 ^ w)
    {gs fs : List (List UInt8)} {rest tail : List UInt8} (readOnes : ∀ g ∈ gs, P g) (sentOnes : ∀ f ∈ fs, P f)
    (hopeless : ∀ g, P g → ¬ frame w g <+: tail)
    (start : gs.flatMap (frame w) ++ rest <+: fs.flatMap (frame w) ++ tail) :
    gs <+: fs ∧ rest <+: (fs.drop gs.length).flatMap (frame w) ++ tail := by
  induction gs generalizing fs with
  | nil => exact ⟨by simp, by simpa using start⟩
  | cons g gs ih =>
      have goodG := readOnes g (by simp)
      rw [List.flatMap_cons, List.append_assoc] at start
      cases fs with
      | nil => exact absurd ((List.prefix_append _ _).trans start) (hopeless g goodG)
      | cons f fs =>
          have goodF := sentOnes f (by simp)
          rw [List.flatMap_cons, List.append_assoc] at start
          obtain ⟨more, whole⟩ := start
          rw [List.append_assoc] at whole
          obtain ⟨rfl, rest_⟩ := frame_append_inj (short g goodG) (short f goodF) whole
          obtain ⟨messages, after⟩ := ih (fun g member => readOnes g (List.mem_cons_of_mem _ member))
            (fun f member => sentOnes f (List.mem_cons_of_mem _ member)) ⟨more, rest_⟩
          exact ⟨(List.prefix_cons_inj g).mpr messages, by simpa using after⟩

/-- A frame at the start of a stream of frames is the first of them. -/
theorem frame_start {P : List UInt8 → Prop} (short : ∀ f, P f → f.length < 256 ^ w)
    {fs : List (List UInt8)} {g tail : List UInt8} (readOne : P g) (sentOnes : ∀ f ∈ fs, P f)
    (hopeless : ∀ g, P g → ¬ frame w g <+: tail) (start : frame w g <+: fs.flatMap (frame w) ++ tail) :
    fs.head? = some g := by
  have start : [g].flatMap (frame w) ++ [] <+: fs.flatMap (frame w) ++ tail := by simpa using start
  obtain ⟨one, -⟩ := frames_start short (by simpa using readOne) sentOnes hopeless start
  cases fs with
  | nil => simp at one
  | cons f fs => simpa [eq_comm] using one

/-- A beginning of a stream that is no longer than its own header announces lies within the first frame. -/
theorem within_frame {message part stream : List UInt8} (short : message.length < 256 ^ w)
    (start : frame w message <+: stream) (part_ : part <+: stream)
    (within : part.length ≤ w ∨ part.length ≤ w + ofBytes (part.take w)) : part <+: frame w message := by
  refine List.prefix_of_prefix_length_le part_ start ?_
  rw [length_frame]
  by_cases header : part.length ≤ w
  · omega
  · have announced := within.resolve_left header
    have same : part.take w = stream.take w := by
      obtain ⟨rest, rfl⟩ := part_
      rw [List.take_append_of_le_length (by omega)]
    rw [same, ofBytes_take_of_start short start] at announced
    exact announced

end CommonRpc.Lib.Framing
