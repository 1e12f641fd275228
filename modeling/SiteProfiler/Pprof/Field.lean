import SiteProfiler.Pprof.Varint

/-!
# Fields on the wire

A message is a sequence of fields.  A field starts with a key, which holds its number and its
wire type, followed by its payload.  Groups and fixed-width payloads are read only to be passed
over, so a field keeps no more of them than their wire type.
-/

namespace SiteProfiler.Pprof

inductive WireType where
  | varint
  | fixed64
  | delimited
  | groupStart
  | groupEnd
  | fixed32
deriving DecidableEq, Repr

namespace WireType

def code : WireType → Nat
  | varint => 0
  | fixed64 => 1
  | delimited => 2
  | groupStart => 3
  | groupEnd => 4
  | fixed32 => 5

def ofCode? : Nat → Option WireType
  | 0 => some varint
  | 1 => some fixed64
  | 2 => some delimited
  | 3 => some groupStart
  | 4 => some groupEnd
  | 5 => some fixed32
  | _ => none

end WireType

inductive Payload where
  | word (value : UInt64)
  | delimited (content : List UInt8)
  | passedOver (wireType : WireType)
deriving DecidableEq, Repr

structure Field where
  number : Nat
  payload : Payload
deriving DecidableEq, Repr

/-! ## Writing -/

def key (number : Nat) (wireType : WireType) : List UInt8 :=
  groups 9 (number * 8 + wireType.code)

def delimited (number : Nat) (content : List UInt8) : List UInt8 :=
  key number .delimited ++ groups 9 content.length ++ content

/-- A number by itself; zero is left out. -/
def scalar (number : Nat) (word : UInt64) : List UInt8 :=
  if word = 0 then [] else key number .varint ++ varint word

/-- A list of numbers in one field; an empty list is left out. -/
def packed (number : Nat) (words : List UInt64) : List UInt8 :=
  if words = [] then [] else delimited number (words.flatMap varint)

/-! ## Reading -/

/-- The key at the front of the bytes: a number other than zero in a key of at most 32 bits. -/
def readKey (bytes : List UInt8) : Except WireError (Nat × WireType × List UInt8) :=
  match readVarint bytes with
  | .error e => .error e
  | .ok (word, rest) =>
    if 0x100000000 ≤ word.toNat then .error .oversizedKey
    else match WireType.ofCode? (word.toNat % 8) with
      | none => .error .unknownWireType
      | some wireType =>
        if word.toNat / 8 = 0 then .error .fieldZero else .ok (word.toNat / 8, wireType, rest)

/-- The first `count` bytes and the rest, if there are that many. -/
def readBytes (count : Nat) (bytes : List UInt8) : Except WireError (List UInt8 × List UInt8) :=
  if count ≤ bytes.length then .ok (bytes.take count, bytes.drop count) else .error .truncated

/-- The payload of a field that is not a group. -/
def readPayload (wireType : WireType) (bytes : List UInt8) :
    Except WireError (Payload × List UInt8) :=
  match wireType with
  | .varint =>
    match readVarint bytes with
    | .error e => .error e
    | .ok (word, rest) => .ok (.word word, rest)
  | .delimited =>
    match readVarint bytes with
    | .error e => .error e
    | .ok (count, rest) =>
      match readBytes count.toNat rest with
      | .error e => .error e
      | .ok (content, left) => .ok (.delimited content, left)
  | .fixed64 =>
    match readBytes 8 bytes with
    | .error e => .error e
    | .ok (_, rest) => .ok (.passedOver .fixed64, rest)
  | .fixed32 =>
    match readBytes 4 bytes with
    | .error e => .error e
    | .ok (_, rest) => .ok (.passedOver .fixed32, rest)
  | .groupStart | .groupEnd => .error .strayGroupEnd

/-- Pass over the inside of a group up to its end.  `opened` holds the numbers of the groups that
are open, innermost first; a field inside them is refused when `limit` groups are open. -/
def passGroups (limit : Nat) : (steps : Nat) → (opened : List Nat) → List UInt8 →
    Except WireError (List UInt8)
  | _, [], bytes => .ok bytes
  | 0, _ :: _, _ => .error .truncated
  | steps + 1, innermost :: outer, bytes =>
    match readKey bytes with
    | .error e => .error e
    | .ok (number, .groupEnd, rest) =>
      if number = innermost then passGroups limit steps outer rest else .error .strayGroupEnd
    | .ok (number, wireType, rest) =>
      if limit ≤ (innermost :: outer).length then .error .tooDeep
      else if wireType = .groupStart then
        passGroups limit steps (number :: innermost :: outer) rest
      else match readPayload wireType rest with
        | .error e => .error e
        | .ok (_, left) => passGroups limit steps (innermost :: outer) left

/-- The field at the front of the bytes. -/
def readField (limit : Nat) (bytes : List UInt8) : Except WireError (Field × List UInt8) :=
  match readKey bytes with
  | .error e => .error e
  | .ok (number, .groupStart, rest) =>
    match passGroups limit rest.length [number] rest with
    | .error e => .error e
    | .ok left => .ok (⟨number, .passedOver .groupStart⟩, left)
  | .ok (number, wireType, rest) =>
    match readPayload wireType rest with
    | .error e => .error e
    | .ok (payload, left) => .ok (⟨number, payload⟩, left)

/-- Fields up to the end of the bytes; every field takes at least one byte. -/
def readFieldsWithin (limit : Nat) : (steps : Nat) → List UInt8 → Except WireError (List Field)
  | _, [] => .ok []
  | 0, _ :: _ => .error .truncated
  | steps + 1, bytes =>
    match readField limit bytes with
    | .error e => .error e
    | .ok (field, rest) =>
      match readFieldsWithin limit steps rest with
      | .error e => .error e
      | .ok fields => .ok (field :: fields)

/-- All the fields of a message, in which groups may be nested `limit` deep. -/
def readFields (limit : Nat) (bytes : List UInt8) : Except WireError (List Field) :=
  readFieldsWithin limit bytes.length bytes

/-! ## What a known field must hold -/

namespace Payload

/-- A number by itself. -/
def word? : Payload → Except WireError UInt64
  | word value => .ok value
  | _ => .error .mismatchedWireType

/-- The content of a text or of a nested message. -/
def content? : Payload → Except WireError (List UInt8)
  | delimited content => .ok content
  | _ => .error .mismatchedWireType

/-- The elements a field adds to a repeated number: one by itself, or a packed list. -/
def words? : Payload → Except WireError (List UInt64)
  | word value => .ok [value]
  | delimited content => readPacked content
  | passedOver _ => .error .mismatchedWireType

end Payload

end SiteProfiler.Pprof
