import Mathlib.Data.List.Induction
import SiteProfiler.Proofs.Trace.Prefixes

/-!
# What a trace buffer drops

Whatever is written to a trace buffer, it holds the longest prefix that fits.  Bytes that are
offered and do not fit are noted, but a formatter offers no frame to a buffer that is full.  So
there is one way in which output is dropped and not noted: some pieces fill the buffer exactly, and
after them nothing but frames is written.
-/

namespace SiteProfiler

/-- A step that writes to a trace buffer. -/
inductive Writing where
  | bytes (bytes : List UInt8)
  | text (text : String)
  | char (c : Char)
  | raw (stack : CallStack)
  | symbols (stack : CallStack)
deriving DecidableEq, Repr

/-- What is written at once.  A frame is not offered to a full buffer. -/
structure Piece where
  bytes : List UInt8
  isFrame : Bool
deriving DecidableEq, Repr

namespace Writing

/-- The buffer after a step. -/
def write (out : TraceBuffer) : Writing → TraceBuffer
  | .bytes written => out.push written
  | .text written => out.pushText written
  | .char c => out.pushText c.toString
  | .raw stack => (Formatter.raw stack out).2
  | .symbols stack => (Formatter.symbols stack out).2

/-- All that a step would write with room enough. -/
def full : Writing → List UInt8
  | .bytes written => written
  | .text written => textBytes written
  | .char c => textBytes c.toString
  | .raw stack => stack.linesBytes rawLine
  | .symbols stack => stack.linesBytes unresolvedLine

/-- A step by the pieces in which it is written. -/
def pieces : Writing → List Piece
  | .bytes written => [⟨written, false⟩]
  | .text written => [⟨textBytes written, false⟩]
  | .char c => [⟨textBytes c.toString, false⟩]
  | .raw stack => stack.frames.map fun pc => ⟨textBytes (rawLine pc), true⟩
  | .symbols stack => stack.frames.map fun pc => ⟨textBytes (unresolvedLine pc), true⟩

theorem flatMap_bytes_pieces (writing : Writing) :
    writing.pieces.flatMap Piece.bytes = writing.full := by
  cases writing with
  | raw stack => exact List.flatMap_map ..
  | symbols stack => exact List.flatMap_map ..
  | _ => exact List.flatMap_singleton ..

end Writing

namespace Piece

/-- The bytes of some pieces together. -/
def joined (pieces : List Piece) : List UInt8 := pieces.flatMap Piece.bytes

theorem length_joined_concat (pieces : List Piece) (piece : Piece) :
    (joined (pieces ++ [piece])).length = (joined pieces).length + piece.bytes.length := by
  rw [joined, List.flatMap_append, List.flatMap_singleton, List.length_append, joined]

/-- Whether a full buffer does not note that it drops the piece. -/
def Unnoted (piece : Piece) : Prop := piece.isFrame = true ∨ piece.bytes = []

/-- The first pieces come to some size exactly, and whatever is written after them is frames. -/
def EndsInFrames (size : Nat) (pieces : List Piece) : Prop :=
  ∃ fitting passed, pieces = fitting ++ passed ∧ (joined fitting).length = size ∧
    ∀ piece ∈ passed, piece.Unnoted

theorem EndsInFrames.size_le {size : Nat} {pieces : List Piece}
    (hEnds : EndsInFrames size pieces) : size ≤ (joined pieces).length := by
  obtain ⟨fitting, passed, rfl, rfl, -⟩ := hEnds
  rw [joined, joined, List.flatMap_append, List.length_append]
  exact Nat.le_add_right _ _

theorem endsInFrames_concat {size : Nat} {pieces : List Piece} {piece : Piece} :
    EndsInFrames size (pieces ++ [piece]) ↔
      (joined (pieces ++ [piece])).length = size ∨ EndsInFrames size pieces ∧ piece.Unnoted := by
  constructor
  · rintro ⟨fitting, passed, hSplit, hSize, hPassed⟩
    rcases List.eq_nil_or_concat passed with rfl | ⟨others, last, rfl⟩
    · rw [List.append_nil] at hSplit
      exact .inl (hSplit ▸ hSize)
    · rw [List.concat_eq_append] at hSplit hPassed
      rw [← List.append_assoc] at hSplit
      obtain ⟨hPieces, hLast⟩ := List.append_inj' hSplit rfl
      refine .inr ⟨⟨fitting, others, hPieces, hSize, fun other hMem =>
        hPassed other (List.mem_append_left _ hMem)⟩, ?_⟩
      rw [List.singleton_inj.mp hLast]
      exact hPassed last (List.mem_append_right _ (List.mem_singleton_self last))
  · rintro (hSize | ⟨⟨fitting, passed, rfl, hSize, hPassed⟩, hPiece⟩)
    · exact ⟨pieces ++ [piece], [], (List.append_nil _).symm, hSize, by simp⟩
    · refine ⟨fitting, passed ++ [piece], List.append_assoc .., hSize, fun other hMem => ?_⟩
      rcases List.mem_append.mp hMem with hOld | hNew
      · exact hPassed other hOld
      · rw [List.mem_singleton.mp hNew]
        exact hPiece

end Piece

namespace TraceBuffer

def pushPiece (out : TraceBuffer) (piece : Piece) : TraceBuffer :=
  if piece.isFrame && out.isFull then out else out.push piece.bytes

theorem push_nil (out : TraceBuffer) : out.push [] = out := by
  simp [push]

theorem push_append (out : TraceBuffer) (bytes more : List UInt8) :
    out.push (bytes ++ more) = (out.push bytes).push more := by
  have hDropped : (decide (out.back.length < (bytes ++ more).length)) =
      (decide (out.back.length < bytes.length) ||
        decide ((out.back.drop bytes.length).length < more.length)) := by
    rw [← Bool.decide_or, List.length_append, List.length_drop]
    congr 1
    apply propext
    omega
  rw [push, push, push, hDropped, List.take_append, List.drop_drop, List.length_append,
    List.append_assoc, Bool.or_assoc, List.length_drop]

/-- A text that is written part by part is written as at once. -/
theorem foldl_push (parts : List (List UInt8)) (out : TraceBuffer) :
    parts.foldl push out = out.push parts.flatten := by
  induction parts generalizing out with
  | nil => exact out.push_nil.symm
  | cons part rest ih => rw [List.foldl_cons, ih, List.flatten_cons, push_append]

theorem foldl_pushPiece_of_isFull {out : TraceBuffer} (hFull : out.isFull = true)
    {pieces : List Piece} (hFrames : ∀ piece ∈ pieces, piece.isFrame = true) :
    pieces.foldl pushPiece out = out := by
  induction pieces with
  | nil => rfl
  | cons piece rest ih =>
    have hPiece : out.pushPiece piece = out := by
      rw [pushPiece, hFrames piece List.mem_cons_self, hFull]
      rfl
    rw [List.foldl_cons, hPiece]
    exact ih fun other hMem => hFrames other (List.mem_cons_of_mem piece hMem)

/-- A formatter that stops at a full buffer passes over the frames that are left. -/
theorem pushFrames_eq (line : Address → String) (frames : List Address) (out : TraceBuffer) :
    out.pushFrames line frames =
      (frames.map fun pc => (⟨textBytes (line pc), true⟩ : Piece)).foldl pushPiece out := by
  induction frames generalizing out with
  | nil => rfl
  | cons pc rest ih =>
    rw [pushFrames]
    split
    next hFull =>
      exact (foldl_pushPiece_of_isFull hFull (by simp)).symm
    next hRoom =>
      have hPiece : out.pushPiece ⟨textBytes (line pc), true⟩ = out.pushText (line pc) := by
        rw [pushPiece, Bool.true_and, if_neg hRoom]
        rfl
      rw [List.map_cons, List.foldl_cons, hPiece, ih]

theorem write_eq (out : TraceBuffer) (writing : Writing) :
    writing.write out = writing.pieces.foldl pushPiece out := by
  cases writing with
  | raw stack => exact out.pushFrames_eq rawLine stack.frames
  | symbols stack => exact out.pushFrames_eq unresolvedLine stack.frames
  | _ => rfl

/-- What a buffer has noted of some pieces, and how much of them it holds. -/
structure Notes (storage : List UInt8) (pieces : List Piece) (out : TraceBuffer) : Prop where
  takes : (TraceBuffer.ofStorage storage).Takes (Piece.joined pieces) out
  truncated_iff : out.truncated = true ↔ storage.length < (Piece.joined pieces).length ∧
    ¬ Piece.EndsInFrames storage.length pieces

theorem Takes.length_back {storage bytes : List UInt8} {out : TraceBuffer}
    (takes : (TraceBuffer.ofStorage storage).Takes bytes out) :
    out.back.length = storage.length - bytes.length := by
  rw [takes.back_eq, List.length_drop]
  rfl

theorem Takes.isFull_iff {storage bytes : List UInt8} {out : TraceBuffer}
    (takes : (TraceBuffer.ofStorage storage).Takes bytes out) :
    out.isFull = true ↔ storage.length ≤ bytes.length := by
  rw [isFull, List.isEmpty_iff, ← List.length_eq_zero_iff, takes.length_back,
    Nat.sub_eq_zero_iff_le]

theorem pushPiece_of_room {out : TraceBuffer} {piece : Piece}
    (hRoom : (piece.isFrame && out.isFull) = false) : out.pushPiece piece = out.push piece.bytes :=
  if_neg (Bool.eq_false_iff.mp hRoom)

theorem takes_pushPiece (out : TraceBuffer) (piece : Piece) :
    out.Takes piece.bytes (out.pushPiece piece) := by
  rw [pushPiece]
  split
  next hPassed => exact takes_of_isFull (Bool.and_eq_true_iff.mp hPassed).2 piece.bytes
  next => exact out.takes_push piece.bytes

theorem truncated_push_iff (out : TraceBuffer) (bytes : List UInt8) :
    (out.push bytes).truncated = true ↔
      out.truncated = true ∨ out.back.length < bytes.length := by
  rw [push, Bool.or_eq_true, decide_eq_true_eq]

/-- A full buffer notes only bytes that are not a frame. -/
theorem truncated_pushPiece_of_isFull {out : TraceBuffer} (hFull : out.isFull = true)
    (piece : Piece) :
    (out.pushPiece piece).truncated = true ↔ out.truncated = true ∨ ¬ piece.Unnoted := by
  have hBack : out.back.length = 0 := by rw [List.isEmpty_iff.mp hFull, List.length_nil]
  rw [pushPiece, hFull, Bool.and_true]
  cases hFrame : piece.isFrame with
  | true =>
    have hUnnoted : piece.Unnoted := .inl hFrame
    simp only [if_true, hUnnoted, not_true_eq_false, or_false]
  | false =>
    have hUnnoted : piece.Unnoted ↔ piece.bytes = [] := by simp [Piece.Unnoted, hFrame]
    rw [if_neg Bool.false_ne_true, truncated_push_iff, hBack, hUnnoted, List.length_pos_iff]

theorem Notes.pushPiece {storage : List UInt8} {pieces : List Piece} {out : TraceBuffer}
    (notes : out.Notes storage pieces) (piece : Piece) :
    (out.pushPiece piece).Notes storage (pieces ++ [piece]) where
  takes := by
    rw [Piece.joined, List.flatMap_append, List.flatMap_singleton]
    exact notes.takes.append (out.takes_pushPiece piece)
  truncated_iff := by
    rw [Piece.endsInFrames_concat, Piece.length_joined_concat]
    have hFull := notes.takes.isFull_iff
    by_cases hRoom : (Piece.joined pieces).length < storage.length
    · -- Nothing has been dropped yet, so nothing can have been left unnoted.
      have hOpen : out.isFull = false := Bool.eq_false_iff.mpr (mt hFull.mp (by omega))
      have hBack := notes.takes.length_back
      have hWhole : ¬ out.truncated = true := by
        rw [notes.truncated_iff]
        omega
      have hStarts : ¬ Piece.EndsInFrames storage.length pieces := fun hEnds => by
        have := hEnds.size_le
        omega
      rw [pushPiece_of_room (by rw [hOpen, Bool.and_false]), truncated_push_iff, hBack]
      simp only [hWhole, hStarts, Bool.false_eq_true, false_or, false_and, or_false]
      omega
    · have hEnough : storage.length ≤ (Piece.joined pieces).length := Nat.le_of_not_lt hRoom
      have hEnds : (Piece.joined pieces).length = storage.length →
          Piece.EndsInFrames storage.length pieces :=
        fun hSize => ⟨pieces, [], (List.append_nil _).symm, hSize, by simp⟩
      rw [truncated_pushPiece_of_isFull (hFull.mpr hEnough), notes.truncated_iff]
      by_cases hUnnoted : piece.Unnoted
      · -- Only a size that is met exactly is in doubt, and then the pieces end in frames.
        simp only [hUnnoted, not_true_eq_false, or_false, and_true]
        refine ⟨fun ⟨hMore, hNot⟩ => ⟨by omega, fun hOr => ?_⟩, fun ⟨hMore, hNot⟩ => ⟨?_, ?_⟩⟩
        · rcases hOr with hSize | hOld
          · omega
          · exact hNot hOld
        · exact Nat.lt_of_le_of_ne hEnough fun hSize => hNot (.inr (hEnds hSize.symm))
        · exact fun hOld => hNot (.inr hOld)
      · have hSome : piece.bytes ≠ [] := fun hNone => hUnnoted (.inr hNone)
        have hLength := List.length_pos_iff.mpr hSome
        simp only [hUnnoted, not_false_eq_true, or_true, true_iff, and_false, or_false]
        omega

theorem notes_foldl_pushPiece (storage : List UInt8) (pieces : List Piece) :
    (pieces.foldl TraceBuffer.pushPiece (TraceBuffer.ofStorage storage)).Notes storage pieces := by
  induction pieces using List.reverseRecOn with
  | nil =>
    refine ⟨(TraceBuffer.ofStorage storage).takes_nil, ?_⟩
    simp [TraceBuffer.ofStorage, Piece.joined]
  | append_singleton pieces piece ih =>
    rw [List.foldl_append]
    exact ih.pushPiece piece

end TraceBuffer

namespace Writing

/-- The buffer after some steps. -/
def writeAll (out : TraceBuffer) (writings : List Writing) : TraceBuffer :=
  writings.foldl write out

/-- All that some steps would write with room enough. -/
def fullText (writings : List Writing) : List UInt8 := writings.flatMap full

theorem joined_flatMap_pieces (writings : List Writing) :
    Piece.joined (writings.flatMap pieces) = fullText writings := by
  rw [Piece.joined, List.flatMap_assoc, fullText]
  exact congrArg (writings.flatMap ·) (funext flatMap_bytes_pieces)

theorem writeAll_eq (writings : List Writing) (out : TraceBuffer) :
    writeAll out writings = (writings.flatMap pieces).foldl TraceBuffer.pushPiece out := by
  induction writings generalizing out with
  | nil => rfl
  | cons writing rest ih =>
    rw [List.flatMap_cons, List.foldl_append, ← out.write_eq, ← ih]
    rfl

end Writing

/-- After any steps a buffer holds the longest prefix of their full text that fits, leaves the
storage after it as it was, and is full exactly if the text is at least as long as the storage.  It
is truncated exactly if the text is longer, except where the text fills the storage up to the end of
a piece and all that is written after that is frames.  It makes no difference in how many parts a
text is written. -/
theorem truncated_unless_ends_in_frames (storage : List UInt8) (writings : List Writing) :
    let out := Writing.writeAll (.ofStorage storage) writings
    let text := Writing.fullText writings
    out.written = min storage.length text.length ∧
      out.storage = text.take storage.length ++ storage.drop text.length ∧
      (out.isFull = true ↔ storage.length ≤ text.length) ∧
      (out.truncated = true ↔ storage.length < text.length ∧
        ¬ Piece.EndsInFrames storage.length (writings.flatMap Writing.pieces)) ∧
      ∀ (parts : List (List UInt8)) (before : TraceBuffer),
        parts.foldl TraceBuffer.push before = before.push parts.flatten := by
  have notes := TraceBuffer.notes_foldl_pushPiece storage (writings.flatMap Writing.pieces)
  have takes := notes.takes
  have hNoted := notes.truncated_iff
  rw [← Writing.writeAll_eq, Writing.joined_flatMap_pieces] at takes hNoted
  obtain ⟨-, hStorage, hWritten⟩ := takes.ofStorage
  exact ⟨hWritten, hStorage, takes.isFull_iff, hNoted, TraceBuffer.foldl_push⟩

/-- Two frames of five bytes each, of which the first fills the storage: the second is dropped and
the buffer is not truncated. -/
theorem exact_fit_hides_frames :
    ¬ ∀ (storage : List UInt8) (writings : List Writing),
      (Writing.writeAll (.ofStorage storage) writings).truncated = true ↔
        storage.length < (Writing.fullText writings).length := by
  intro hAlways
  have hHidden := hAlways (List.replicate 5 46) [.raw (.ofAddresses [1, 2])]
  revert hHidden
  decide +kernel

end SiteProfiler
