import Mathlib.Algebra.GroupWithZero.Nat
import SiteProfiler.Pprof.Field

/-!
# Spellings on the wire

What the readers of a number, a key and a payload accept, said without them.  A number has one
spelling that is written and longer ones that are read as well.  A reader accepts exactly the bytes
that begin with a spelling, and leaves those after it.
-/

namespace SiteProfiler.Pprof

/-! ## Numbers and keys -/

/-- The bytes spell a number, seven bits in each, lowest first.  All but the last have their high
bit set.  At most `more` bytes follow the first; the last of these holds one bit. -/
inductive Spells : (more : Nat) → List UInt8 → Nat → Prop
  | tenth {byte : UInt8} (hBit : byte < 2) : Spells 0 [byte] byte.toNat
  | last {more : Nat} {byte : UInt8} (hLast : byte < 128) : Spells (more + 1) [byte] byte.toNat
  | more {more : Nat} {byte : UInt8} {bytes : List UInt8} {high : Nat} (hMore : ¬ byte < 128)
      (hRest : Spells more bytes high) :
      Spells (more + 1) (byte :: bytes) (byte.toNat - 128 + 128 * high)

theorem Spells.lt {more : Nat} {bytes : List UInt8} {n : Nat} (spells : Spells more bytes n) :
    n < 2 ^ (7 * more + 1) := by
  induction spells with
  | tenth hBit => exact UInt8.lt_iff_toNat_lt.1 hBit
  | @last more byte hLast =>
    have hPow : 2 ^ 8 ≤ 2 ^ (7 * (more + 1) + 1) := Nat.pow_le_pow_right (by decide) (by omega)
    have hByte := byte.toNat_lt
    omega
  | @more more byte bytes high hMore hRest ih =>
    have hPow : 2 ^ (7 * (more + 1) + 1) = 2 ^ (7 * more + 1) * 128 := by
      rw [show 7 * (more + 1) + 1 = 7 * more + 1 + 7 from by omega, Nat.pow_add]
    have hByte := byte.toNat_lt
    omega

theorem toNat_ofNat_byte {n : Nat} (hByte : n < 256) : (UInt8.ofNat n).toNat = n := by
  rw [UInt8.toNat_ofNat']
  omega

/-- What is written for a number spells it. -/
theorem spells_groups {more n : Nat} (hFits : n < 2 ^ (7 * more + 1)) :
    Spells more (groups more n) n := by
  induction more generalizing n with
  | zero =>
    have hByte : (UInt8.ofNat n).toNat = n := toNat_ofNat_byte (by omega)
    have hLast : UInt8.ofNat n < 2 := by rw [UInt8.lt_iff_toNat_lt, hByte]; exact hFits
    have spells := Spells.tenth hLast
    rwa [hByte] at spells
  | succ more ih =>
    rw [groups]
    split
    · next hSmall =>
      have hByte : (UInt8.ofNat n).toNat = n := toNat_ofNat_byte (by omega)
      have hLast : UInt8.ofNat n < 128 := by rw [UInt8.lt_iff_toNat_lt, hByte]; exact hSmall
      have spells : Spells (more + 1) _ _ := .last hLast
      rwa [hByte] at spells
    · have hByte : (UInt8.ofNat (n % 128 + 128)).toNat = n % 128 + 128 :=
        toNat_ofNat_byte (by omega)
      have hMore : ¬ UInt8.ofNat (n % 128 + 128) < 128 := by
        rw [UInt8.lt_iff_toNat_lt, hByte]
        exact Nat.not_lt.2 (Nat.le_add_left ..)
      have hHigh : n / 128 < 2 ^ (7 * more + 1) := by
        have hPow : 2 ^ (7 * (more + 1) + 1) = 2 ^ (7 * more + 1) * 128 := by
          rw [show 7 * (more + 1) + 1 = 7 * more + 1 + 7 from by omega, Nat.pow_add]
        exact Nat.div_lt_of_lt_mul (by rw [Nat.mul_comm, ← hPow]; exact hFits)
      have spells := Spells.more hMore (ih hHigh)
      rwa [hByte, show n % 128 + 128 - 128 + 128 * (n / 128) = n from by omega] at spells

theorem readGroups_of_spells {more : Nat} {front : List UInt8} {n : Nat}
    (spells : Spells more front n) (rest : List UInt8) :
    readGroups more (front ++ rest) = .ok (n, rest) := by
  induction spells with
  | tenth hBit => simp only [List.singleton_append, readGroups, if_pos hBit]
  | last hLast => simp only [List.singleton_append, readGroups, if_pos hLast]
  | more hMore hRest ih => simp only [List.cons_append, readGroups, if_neg hMore, ih]

theorem spells_of_readGroups {more : Nat} {bytes rest : List UInt8} {n : Nat}
    (hRead : readGroups more bytes = .ok (n, rest)) :
    ∃ front, bytes = front ++ rest ∧ Spells more front n := by
  induction more generalizing bytes n with
  | zero =>
    cases bytes with
    | nil => cases hRead
    | cons byte tail =>
      simp only [readGroups] at hRead
      split at hRead
      next hBit =>
        cases hRead
        exact ⟨[byte], rfl, .tenth hBit⟩
      next => cases hRead
  | succ more ih =>
    cases bytes with
    | nil => cases hRead
    | cons byte tail =>
      simp only [readGroups] at hRead
      split at hRead
      next hLast =>
        cases hRead
        exact ⟨[byte], rfl, .last hLast⟩
      next hMore =>
        split at hRead
        next high left hHigh =>
          cases hRead
          obtain ⟨front, rfl, spells⟩ := ih hHigh
          exact ⟨byte :: front, rfl, .more hMore spells⟩
        next => cases hRead

/-- A spelled number fits in a word. -/
theorem Spells.toNat_ofNat {bytes : List UInt8} {n : Nat} (spells : Spells 9 bytes n) :
    (UInt64.ofNat n).toNat = n :=
  UInt64.toNat_ofNat_of_lt' spells.lt

theorem readVarint_of_spells {front : List UInt8} {n : Nat} (spells : Spells 9 front n)
    (rest : List UInt8) : readVarint (front ++ rest) = .ok (UInt64.ofNat n, rest) := by
  simp only [readVarint, readGroups_of_spells spells]

theorem spells_of_readVarint {bytes rest : List UInt8} {word : UInt64}
    (hRead : readVarint bytes = .ok (word, rest)) :
    ∃ front, bytes = front ++ rest ∧ Spells 9 front word.toNat := by
  unfold readVarint at hRead
  split at hRead
  next n left hGroups =>
    cases hRead
    obtain ⟨front, hBytes, spells⟩ := spells_of_readGroups hGroups
    refine ⟨front, hBytes, ?_⟩
    rw [spells.toNat_ofNat]
    exact spells
  next => cases hRead

theorem spells_varint (word : UInt64) : Spells 9 (varint word) word.toNat :=
  spells_groups word.toNat_lt

/-- The bytes spell words, one after the other. -/
inductive SpellsAll : List UInt8 → List UInt64 → Prop
  | nil : SpellsAll [] []
  | cons {front rest : List UInt8} {word : UInt64} {words : List UInt64}
      (hSpells : Spells 9 front word.toNat) (hRest : SpellsAll rest words) :
      SpellsAll (front ++ rest) (word :: words)

theorem spellsAll_varints (words : List UInt64) : SpellsAll (words.flatMap varint) words := by
  induction words with
  | nil => exact .nil
  | cons word rest ih => exact .cons (spells_varint word) ih

/-- The numbers a field can have. -/
def IsFieldNumber (number : Nat) : Prop := 0 < number ∧ number < 2 ^ 29

/-- The bytes are a key: any spelling of the field's number and wire type. -/
structure KeyOf (number : Nat) (wireType : WireType) (bytes : List UInt8) : Prop where
  isNumber : IsFieldNumber number
  spells : Spells 9 bytes (number * 8 + wireType.code)

theorem WireType.code_lt (wireType : WireType) : wireType.code < 8 := by
  cases wireType <;> decide

theorem keyOf_key {number : Nat} (hNumber : IsFieldNumber number) (wireType : WireType) :
    KeyOf number wireType (key number wireType) := by
  have hCode := wireType.code_lt
  have hBounded := hNumber.2
  exact ⟨hNumber, spells_groups (by omega)⟩

theorem WireType.ofCode?_eq_some_iff {code : Nat} {wireType : WireType} :
    ofCode? code = some wireType ↔ code = wireType.code := by
  constructor
  · intro hCode
    unfold ofCode? at hCode
    split at hCode <;> cases hCode <;> rfl
  · rintro rfl
    cases wireType <;> rfl

theorem readKey_of_keyOf {number : Nat} {wireType : WireType} {front : List UInt8}
    (keyOf : KeyOf number wireType front) (rest : List UInt8) :
    readKey (front ++ rest) = .ok (number, wireType, rest) := by
  obtain ⟨⟨hPositive, hBounded⟩, spells⟩ := keyOf
  have hCode := wireType.code_lt
  have hType : WireType.ofCode? ((number * 8 + wireType.code) % 8) = some wireType :=
    WireType.ofCode?_eq_some_iff.2 (by omega)
  have hNumber : (number * 8 + wireType.code) / 8 = number := by omega
  rw [readKey, readVarint_of_spells spells]
  simp only [spells.toNat_ofNat, hType, hNumber]
  rw [if_neg (by omega), if_neg (by omega)]

theorem keyOf_of_readKey {bytes rest : List UInt8} {number : Nat} {wireType : WireType}
    (hRead : readKey bytes = .ok (number, wireType, rest)) :
    ∃ front, bytes = front ++ rest ∧ KeyOf number wireType front := by
  unfold readKey at hRead
  split at hRead
  next => cases hRead
  next word left hVarint =>
    split at hRead
    next => cases hRead
    next hSmall =>
      split at hRead
      next => cases hRead
      next found hFound =>
        split at hRead
        next => cases hRead
        next hNumber =>
          cases hRead
          obtain ⟨front, hBytes, spells⟩ := spells_of_readVarint hVarint
          have hCode := WireType.ofCode?_eq_some_iff.1 hFound
          have hWord : word.toNat = word.toNat / 8 * 8 + wireType.code := by omega
          exact ⟨front, hBytes, ⟨by omega, by omega⟩, hWord ▸ spells⟩

/-! ## Payloads -/

/-- The bytes are a payload of a wire type other than those of groups. -/
inductive Holds : WireType → Payload → List UInt8 → Prop
  | word {word : UInt64} {bytes : List UInt8} (hSpells : Spells 9 bytes word.toNat) :
      Holds .varint (.word word) bytes
  | delimited {count content : List UInt8} (hSpells : Spells 9 count content.length) :
      Holds .delimited (.delimited content) (count ++ content)
  | fixed64 {bytes : List UInt8} (hLength : bytes.length = 8) :
      Holds .fixed64 (.passedOver .fixed64) bytes
  | fixed32 {bytes : List UInt8} (hLength : bytes.length = 4) :
      Holds .fixed32 (.passedOver .fixed32) bytes

theorem readBytes_eq_ok_iff {count : Nat} {bytes content rest : List UInt8} :
    readBytes count bytes = .ok (content, rest) ↔
      bytes = content ++ rest ∧ content.length = count := by
  unfold readBytes
  constructor
  · intro hRead
    split at hRead
    next hEnough =>
      cases hRead
      exact ⟨(List.take_append_drop count bytes).symm, List.length_take_of_le hEnough⟩
    next => cases hRead
  · rintro ⟨rfl, rfl⟩
    rw [if_pos (by simp), List.take_left, List.drop_left]

theorem readPayload_of_holds {wireType : WireType} {payload : Payload} {front : List UInt8}
    (holds : Holds wireType payload front) (rest : List UInt8) :
    readPayload wireType (front ++ rest) = .ok (payload, rest) := by
  cases holds with
  | word spells => simp only [readPayload, readVarint_of_spells spells, UInt64.ofNat_toNat]
  | delimited spells =>
    rw [List.append_assoc]
    simp only [readPayload, readVarint_of_spells spells, spells.toNat_ofNat,
      readBytes_eq_ok_iff.2 ⟨rfl, rfl⟩]
  | fixed64 hLength => simp only [readPayload, readBytes_eq_ok_iff.2 ⟨rfl, hLength⟩]
  | fixed32 hLength => simp only [readPayload, readBytes_eq_ok_iff.2 ⟨rfl, hLength⟩]

theorem holds_of_readPayload {wireType : WireType} {bytes rest : List UInt8} {payload : Payload}
    (hRead : readPayload wireType bytes = .ok (payload, rest)) :
    ∃ front, bytes = front ++ rest ∧ Holds wireType payload front := by
  unfold readPayload at hRead
  split at hRead
  next =>
    split at hRead
    next => cases hRead
    next word left hVarint =>
      cases hRead
      obtain ⟨front, hBytes, spells⟩ := spells_of_readVarint hVarint
      exact ⟨front, hBytes, .word spells⟩
  next =>
    split at hRead
    next => cases hRead
    next count left hVarint =>
      split at hRead
      next => cases hRead
      next content after hContent =>
        cases hRead
        obtain ⟨front, rfl, spells⟩ := spells_of_readVarint hVarint
        obtain ⟨rfl, hLength⟩ := readBytes_eq_ok_iff.1 hContent
        exact ⟨front ++ content, (List.append_assoc ..).symm, .delimited (hLength ▸ spells)⟩
  next =>
    split at hRead
    next => cases hRead
    next content left hContent =>
      cases hRead
      obtain ⟨hBytes, hLength⟩ := readBytes_eq_ok_iff.1 hContent
      exact ⟨content, hBytes, .fixed64 hLength⟩
  next =>
    split at hRead
    next => cases hRead
    next content left hContent =>
      cases hRead
      obtain ⟨hBytes, hLength⟩ := readBytes_eq_ok_iff.1 hContent
      exact ⟨content, hBytes, .fixed32 hLength⟩
  next => cases hRead
  next => cases hRead

end SiteProfiler.Pprof
