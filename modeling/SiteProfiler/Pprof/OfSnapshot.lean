import SiteProfiler.Pprof.Message
import SiteProfiler.Profile.Snapshot

/-!
# Profile messages of snapshots

Each record of a snapshot becomes a sample.  Addresses become locations, numbered from 1 in the
order in which the records first name them; names become indices into a table of texts that
starts with the empty one.
-/

namespace SiteProfiler.Pprof

/-- The position of a value in a list, and the list with the value added if it was not in it. -/
def intern {α : Type} [BEq α] (known : List α) (value : α) : Nat × List α :=
  match known.idxOf? value with
  | some index => (index, known)
  | none => (known.length, known ++ [value])

/-- Positions of several values, interned from left to right. -/
def internAll {α : Type} [BEq α] (known : List α) : List α → List Nat × List α
  | [] => ([], known)
  | value :: rest =>
    let (index, extended) := intern known value
    let (indices, final) := internAll extended rest
    (index :: indices, final)

/-- One record as the samples are built from: its stack and its values. -/
structure Entry where
  stack : List Address
  values : List Int64

/-- The samples of entries in order, with the addresses located so far. -/
def sampleAll (located : List Address) : List Entry → List Sample × List Address
  | [] => ([], located)
  | entry :: rest =>
    let (indices, extended) := internAll located entry.stack
    let (samples, final) := sampleAll extended rest
    (⟨indices.map fun index => UInt64.ofNat (index + 1), entry.values⟩ :: samples, final)

/-- Locations of addresses, numbered from 1. -/
def locate (located : List Address) : List Location :=
  located.mapIdx fun index address => ⟨UInt64.ofNat (index + 1), 0, address, false⟩

/-- Names of what the values of a sample count, each with its unit. -/
def nameTypes (names : List String) : List (String × String) → List ValueType × List String
  | [] => ([], names)
  | (type, unit) :: rest =>
    let (typeIndex, named) := intern names type
    let (unitIndex, both) := intern named unit
    let (types, final) := nameTypes both rest
    (⟨Int64.ofNat typeIndex, Int64.ofNat unitIndex⟩ :: types, final)

/-- The profile of entries whose values have the given types; the first of these is also the
type of the period, which is 1. -/
def build (types : List (String × String)) (defaultType : String) (entries : List Entry) :
    Profile :=
  let (sampleTypes, named) := nameTypes [""] types
  let (samples, located) := sampleAll [] entries
  let (defaultIndex, names) := intern named defaultType
  { Profile.blank with
    sampleTypes := sampleTypes
    samples := samples
    locations := locate located
    stringTable := names
    periodType := sampleTypes.head?
    period := 1
    defaultSampleType := Int64.ofNat defaultIndex }

end SiteProfiler.Pprof

namespace SiteProfiler

open Pprof

def MemRecord.entry (record : MemRecord) : Entry where
  stack := record.stack
  values := [record.allocObjects, record.allocBytes, record.inUseObjects, record.inUseBytes]

def BlockRecord.entry (record : BlockRecord) : Entry where
  stack := record.stack
  values := [record.count, record.cycles]

def MemSnapshot.profile (snapshot : MemSnapshot) : Profile :=
  build
    [("alloc_objects", "count"), ("alloc_space", "bytes"),
      ("inuse_objects", "count"), ("inuse_space", "bytes")]
    "inuse_space" (snapshot.records.map MemRecord.entry)

def BlockSnapshot.profile (snapshot : BlockSnapshot) : Profile :=
  build [("contentions", "count"), ("delay", "cycles")] "delay"
    (snapshot.records.map BlockRecord.entry)

end SiteProfiler
