import SiteProfiler.Pprof.Field
import SiteProfiler.Text

/-!
# Profile messages

The part of the pprof schema that profile export uses.  Encoding writes the fields of a message
in the order of their numbers and leaves out numbers that are zero and lists that are empty.
Decoding folds the fields of the bytes, in whatever order they come, into a message that starts
out blank: a later scalar replaces an earlier one, repeated fields are appended, and fields that
a message does not declare are ignored.
-/

namespace SiteProfiler.Pprof

structure ValueType where
  type : Int64
  unit : Int64
deriving DecidableEq, Repr

structure Sample where
  locationIds : List UInt64
  values : List Int64
deriving DecidableEq, Repr

structure Location where
  id : UInt64
  mappingId : UInt64
  address : UInt64
  isFolded : Bool
deriving DecidableEq, Repr

structure Profile where
  sampleTypes : List ValueType
  samples : List Sample
  locations : List Location
  stringTable : List String
  dropFrames : Int64
  keepFrames : Int64
  timeNanos : Int64
  durationNanos : Int64
  periodType : Option ValueType
  period : Int64
  comments : List Int64
  defaultSampleType : Int64
deriving DecidableEq, Repr

def ValueType.blank : ValueType := ⟨0, 0⟩

def Sample.blank : Sample := ⟨[], []⟩

def Location.blank : Location := ⟨0, 0, 0, false⟩

def Profile.blank : Profile := ⟨[], [], [], [], 0, 0, 0, 0, none, 0, [], 0⟩

/-! ## Encoding -/

def ValueType.encode (message : ValueType) : List UInt8 :=
  scalar 1 message.type.toUInt64 ++ scalar 2 message.unit.toUInt64

def Sample.encode (message : Sample) : List UInt8 :=
  packed 1 message.locationIds ++ packed 2 (message.values.map Int64.toUInt64)

def Location.encode (message : Location) : List UInt8 :=
  scalar 1 message.id ++ scalar 2 message.mappingId ++ scalar 3 message.address ++
    scalar 5 message.isFolded.toUInt64

def Profile.encode (message : Profile) : List UInt8 :=
  message.sampleTypes.flatMap (fun item => delimited 1 item.encode) ++
  message.samples.flatMap (fun item => delimited 2 item.encode) ++
  message.locations.flatMap (fun item => delimited 4 item.encode) ++
  message.stringTable.flatMap (fun text => delimited 6 (textBytes text)) ++
  scalar 7 message.dropFrames.toUInt64 ++
  scalar 8 message.keepFrames.toUInt64 ++
  scalar 9 message.timeNanos.toUInt64 ++
  scalar 10 message.durationNanos.toUInt64 ++
  message.periodType.toList.flatMap (fun item => delimited 11 item.encode) ++
  scalar 12 message.period.toUInt64 ++
  packed 13 (message.comments.map Int64.toUInt64) ++
  scalar 14 message.defaultSampleType.toUInt64

/-! ## Decoding -/

/-- How deep groups may be nested in a profile. -/
def groupLimit : Nat := 100

/-- How deep groups may be nested in a message inside a profile. -/
def nestedGroupLimit : Nat := groupLimit - 1

def ValueType.add (message : ValueType) (field : Field) : Except WireError ValueType :=
  match field.number with
  | 1 => do return { message with type := (← field.payload.word?).toInt64 }
  | 2 => do return { message with unit := (← field.payload.word?).toInt64 }
  | _ => return message

def Sample.add (message : Sample) (field : Field) : Except WireError Sample :=
  match field.number with
  | 1 => do
    let ids ← field.payload.words?
    return { message with locationIds := message.locationIds ++ ids }
  | 2 => do
    let words ← field.payload.words?
    return { message with values := message.values ++ words.map UInt64.toInt64 }
  | _ => return message

def Location.add (message : Location) (field : Field) : Except WireError Location :=
  match field.number with
  | 1 => do return { message with id := ← field.payload.word? }
  | 2 => do return { message with mappingId := ← field.payload.word? }
  | 3 => do return { message with address := ← field.payload.word? }
  | 5 => do return { message with isFolded := (← field.payload.word?) ≠ 0 }
  | _ => return message

/-- A value type, starting from one that may hold values already. -/
def ValueType.merge (message : ValueType) (content : List UInt8) : Except WireError ValueType := do
  (← readFields nestedGroupLimit content).foldlM ValueType.add message

def Sample.decode (content : List UInt8) : Except WireError Sample := do
  (← readFields nestedGroupLimit content).foldlM Sample.add .blank

def Location.decode (content : List UInt8) : Except WireError Location := do
  (← readFields nestedGroupLimit content).foldlM Location.add .blank

def decodeText (content : List UInt8) : Except WireError String :=
  match String.fromUTF8? content.toByteArray with
  | some text => .ok text
  | none => .error .invalidText

def Profile.add (message : Profile) (field : Field) : Except WireError Profile :=
  match field.number with
  | 1 => do
    let item ← ValueType.blank.merge (← field.payload.content?)
    return { message with sampleTypes := message.sampleTypes ++ [item] }
  | 2 => do
    let item ← Sample.decode (← field.payload.content?)
    return { message with samples := message.samples ++ [item] }
  | 4 => do
    let item ← Location.decode (← field.payload.content?)
    return { message with locations := message.locations ++ [item] }
  | 6 => do
    let text ← decodeText (← field.payload.content?)
    return { message with stringTable := message.stringTable ++ [text] }
  | 7 => do return { message with dropFrames := (← field.payload.word?).toInt64 }
  | 8 => do return { message with keepFrames := (← field.payload.word?).toInt64 }
  | 9 => do return { message with timeNanos := (← field.payload.word?).toInt64 }
  | 10 => do return { message with durationNanos := (← field.payload.word?).toInt64 }
  | 11 => do
    let item ← (message.periodType.getD .blank).merge (← field.payload.content?)
    return { message with periodType := some item }
  | 12 => do return { message with period := (← field.payload.word?).toInt64 }
  | 13 => do
    let words ← field.payload.words?
    return { message with comments := message.comments ++ words.map UInt64.toInt64 }
  | 14 => do return { message with defaultSampleType := (← field.payload.word?).toInt64 }
  | _ => return message

def Profile.decode (bytes : List UInt8) : Except WireError Profile := do
  (← readFields groupLimit bytes).foldlM Profile.add .blank

end SiteProfiler.Pprof
