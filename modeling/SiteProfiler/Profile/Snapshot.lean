import SiteProfiler.Profile.CompactJson
import SiteProfiler.Profile.Record

/-!
# Snapshots

A snapshot owns the records of one complete profile.  Its totals are added up from the records
in order, each addition capped.  Its JSON form gives the totals before the records.
-/

namespace SiteProfiler

open CompactJson

/-- The addresses of a stack as a JSON array. -/
def stackJson (stack : List Address) : Pieces :=
  array (stack.map fun pc => integer pc.toNat)

def StackRecord.json (record : StackRecord) : Pieces :=
  object [("stack", stackJson record.stack)]

def MemRecord.json (record : MemRecord) : Pieces :=
  object [
    ("alloc_bytes", integer record.allocBytes.toInt),
    ("alloc_objects", integer record.allocObjects.toInt),
    ("free_bytes", integer record.freeBytes.toInt),
    ("free_objects", integer record.freeObjects.toInt),
    ("stack", stackJson record.stack)]

def BlockRecord.json (record : BlockRecord) : Pieces :=
  object [
    ("count", integer record.count.toInt),
    ("cycles", integer record.cycles.toInt),
    ("stack", stackJson record.stack)]

/-- An owned memory profile, and the number of completed collection cycles. -/
structure MemSnapshot where
  records : List MemRecord
  collectionCycles : Nat
deriving DecidableEq

namespace MemSnapshot

def inUseBytes (snapshot : MemSnapshot) : Int64 :=
  signedTotal (snapshot.records.map MemRecord.inUseBytes)

def inUseObjects (snapshot : MemSnapshot) : Int64 :=
  signedTotal (snapshot.records.map MemRecord.inUseObjects)

def json (snapshot : MemSnapshot) : Pieces :=
  object [
    ("collection_cycles", integer snapshot.collectionCycles),
    ("in_use_bytes", integer snapshot.inUseBytes.toInt),
    ("in_use_objects", integer snapshot.inUseObjects.toInt),
    ("records", array (snapshot.records.map MemRecord.json))]

end MemSnapshot

/-- An owned blocking profile. -/
structure BlockSnapshot where
  records : List BlockRecord
deriving DecidableEq

namespace BlockSnapshot

def totalCount (snapshot : BlockSnapshot) : Int64 :=
  signedTotal (snapshot.records.map BlockRecord.count)

def totalCycles (snapshot : BlockSnapshot) : Int64 :=
  signedTotal (snapshot.records.map BlockRecord.cycles)

def json (snapshot : BlockSnapshot) : Pieces :=
  object [
    ("count", integer snapshot.totalCount.toInt),
    ("cycles", integer snapshot.totalCycles.toInt),
    ("records", array (snapshot.records.map BlockRecord.json))]

end BlockSnapshot

end SiteProfiler
