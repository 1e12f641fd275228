/-!
# Variable-length integers

A 64-bit word is written in groups of seven bits, lowest first, each but the last with its high
bit set.  Ten groups are enough; the tenth holds one bit.  Reading accepts longer forms of a
value as long as they keep within ten bytes.
-/

namespace SiteProfiler.Pprof

/-- Why bytes are not a message. -/
inductive WireError where
  | truncated
  | overlongVarint
  | oversizedKey
  | fieldZero
  | unknownWireType
  | mismatchedWireType
  | strayGroupEnd
  | tooDeep
  | invalidText
deriving DecidableEq, Repr

/-- The groups of a number; at most `more` follow the first. -/
def groups : (more : Nat) → Nat → List UInt8
  | 0, n => [UInt8.ofNat n]
  | more + 1, n =>
    if n < 128 then [UInt8.ofNat n]
    else UInt8.ofNat (n % 128 + 128) :: groups more (n / 128)

def varint (word : UInt64) : List UInt8 := groups 9 word.toNat

/-- Read groups, at most `more` after the first; the last one allowed holds a single bit. -/
def readGroups : (more : Nat) → List UInt8 → Except WireError (Nat × List UInt8)
  | _, [] => .error .truncated
  | 0, byte :: rest => if byte < 2 then .ok (byte.toNat, rest) else .error .overlongVarint
  | more + 1, byte :: rest =>
    if byte < 128 then .ok (byte.toNat, rest)
    else match readGroups more rest with
      | .ok (high, left) => .ok (byte.toNat - 128 + 128 * high, left)
      | .error e => .error e

/-- The word at the front of the bytes, and the bytes after it. -/
def readVarint (bytes : List UInt8) : Except WireError (UInt64 × List UInt8) :=
  match readGroups 9 bytes with
  | .ok (value, rest) => .ok (UInt64.ofNat value, rest)
  | .error e => .error e

theorem length_readGroups {more : Nat} {bytes rest : List UInt8} {value : Nat}
    (hRead : readGroups more bytes = .ok (value, rest)) : rest.length < bytes.length := by
  induction more generalizing bytes value with
  | zero =>
    cases bytes with
    | nil => simp [readGroups] at hRead
    | cons byte tail => grind [readGroups]
  | succ more ih =>
    cases bytes with
    | nil => simp [readGroups] at hRead
    | cons byte tail => grind [readGroups]

theorem length_readVarint {bytes rest : List UInt8} {word : UInt64}
    (hRead : readVarint bytes = .ok (word, rest)) : rest.length < bytes.length := by
  unfold readVarint at hRead
  split at hRead
  · next value left hGroups =>
    have hLess := length_readGroups hGroups
    grind
  · cases hRead

/-- Words up to the end of the bytes, at most `steps` of them. -/
def readWords : (steps : Nat) → List UInt8 → Except WireError (List UInt64)
  | _, [] => .ok []
  | 0, _ :: _ => .error .truncated
  | steps + 1, bytes =>
    match readVarint bytes with
    | .error e => .error e
    | .ok (word, rest) =>
      match readWords steps rest with
      | .error e => .error e
      | .ok words => .ok (word :: words)

/-- All the words of a packed list; each takes at least one byte. -/
def readPacked (bytes : List UInt8) : Except WireError (List UInt64) :=
  readWords bytes.length bytes

end SiteProfiler.Pprof
