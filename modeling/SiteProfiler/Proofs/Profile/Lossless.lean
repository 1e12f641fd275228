import Mathlib.Data.List.Forall2
import Mathlib.Tactic.MkIffOfInductiveProp
import SiteProfiler.Profile.Snapshot
import SiteProfiler.Proofs.Profile.JsonText

/-!
# What the JSON form of a snapshot keeps

The text of a snapshot can be read back to the counters and the stack of each record, in order,
and for a memory snapshot to its cycles.  Nothing else of the snapshot goes into the text: the
slots after the first zero of a stack field are not written, and the totals in the text are those
of the records.  So two snapshots have one text exactly when they agree on what is read back.
-/

namespace SiteProfiler

open CompactJson

namespace CompactJson.Value

/-! ## The parts of a value -/

def integer? : Value → Option Int
  | integer value => some value
  | _ => none

def items? : Value → Option (List Value)
  | array items => some items
  | _ => none

def member? (key : String) : Value → Option Value
  | object members => members.lookup key
  | _ => none

def nat? (value : Value) : Option Nat := value.integer?.bind Int.toNat?

/-- An exported number; a number outside its range is refused. -/
def signed? (value : Value) : Option Int64 :=
  value.integer?.bind fun n => if (Int64.ofInt n).toInt = n then some (Int64.ofInt n) else none

/-- An address; a number outside its range is refused. -/
def address? (value : Value) : Option Address :=
  value.nat?.bind fun n => if (UInt64.ofNat n).toNat = n then some (UInt64.ofNat n) else none

def stack? (value : Value) : Option (List Address) := value.items?.bind (·.mapM address?)

def ofSigned (value : Int64) : Value := integer value.toInt

def ofStack (stack : List Address) : Value := array (stack.map fun pc => integer pc.toNat)

@[simp] theorem nat?_integer (n : Nat) : (integer n).nat? = some n := rfl

@[simp] theorem signed?_ofSigned (value : Int64) : (ofSigned value).signed? = some value := by
  simp [ofSigned, signed?, integer?]

@[simp] theorem address?_integer (pc : Address) : (integer pc.toNat).address? = some pc := by
  simp [address?, pc.toNat_lt]

/-- Parts that are each read back are read back as a list. -/
theorem mapM_map_eq {α β : Type} {write : α → β} {read : β → Option α}
    (hRead : ∀ part, read (write part) = some part) (parts : List α) :
    (parts.map write).mapM read = some parts := by
  induction parts with
  | nil => rfl
  | cons part rest ih => simp [List.mapM_cons, hRead, ih]

@[simp] theorem stack?_ofStack (stack : List Address) : (ofStack stack).stack? = some stack :=
  mapM_map_eq address?_integer stack

theorem pieces_ofSigned (value : Int64) :
    (ofSigned value).pieces = CompactJson.integer value.toInt := by
  rw [ofSigned, pieces]

theorem pieces_ofStack (stack : List Address) : (ofStack stack).pieces = stackJson stack := by
  simp [ofStack, pieces, stackJson, Function.comp_def]

theorem fits_ofStack (stack : List Address) (depth : Nat) : (ofStack stack).Fits (depth + 1) := by
  intro item hMem
  obtain ⟨pc, -, rfl⟩ := List.mem_map.mp hMem
  cases depth <;> trivial

end CompactJson.Value

open CompactJson.Value

/-! ## Records -/

/-- What the text of a memory record tells. -/
structure MemEntry where
  allocBytes : Int64
  allocObjects : Int64
  freeBytes : Int64
  freeObjects : Int64
  stack : List Address

namespace MemEntry

def value (entry : MemEntry) : Value :=
  .object [
    ("alloc_bytes", ofSigned entry.allocBytes),
    ("alloc_objects", ofSigned entry.allocObjects),
    ("free_bytes", ofSigned entry.freeBytes),
    ("free_objects", ofSigned entry.freeObjects),
    ("stack", ofStack entry.stack)]

def ofValue? (value : Value) : Option MemEntry := do
  let allocBytes ← (← value.member? "alloc_bytes").signed?
  let allocObjects ← (← value.member? "alloc_objects").signed?
  let freeBytes ← (← value.member? "free_bytes").signed?
  let freeObjects ← (← value.member? "free_objects").signed?
  let stack ← (← value.member? "stack").stack?
  return ⟨allocBytes, allocObjects, freeBytes, freeObjects, stack⟩

theorem ofValue?_value (entry : MemEntry) : ofValue? entry.value = some entry := by
  simp [ofValue?, value, member?, List.lookup_cons]

theorem fits_value (entry : MemEntry) : entry.value.Fits 2 := by
  simp [value, Fits, fits_ofStack, ofSigned]

/-- Bytes still live, by the entry. -/
def inUseBytes (entry : MemEntry) : Int64 := signedDifference entry.allocBytes entry.freeBytes

/-- Objects still live, by the entry. -/
def inUseObjects (entry : MemEntry) : Int64 :=
  signedDifference entry.allocObjects entry.freeObjects

end MemEntry

def MemRecord.jsonEntry (record : MemRecord) : MemEntry where
  allocBytes := record.allocBytes
  allocObjects := record.allocObjects
  freeBytes := record.freeBytes
  freeObjects := record.freeObjects
  stack := record.stack

theorem MemRecord.pieces_jsonEntry (record : MemRecord) :
    record.jsonEntry.value.pieces = record.json := by
  simp [json, MemEntry.value, pieces, pieces_ofSigned, pieces_ofStack, jsonEntry]

/-- The same counters, and the same stack up to its first zero slot. -/
@[mk_iff]
structure MemRecord.Agrees (a b : MemRecord) : Prop where
  allocBytes : a.allocBytes = b.allocBytes
  allocObjects : a.allocObjects = b.allocObjects
  freeBytes : a.freeBytes = b.freeBytes
  freeObjects : a.freeObjects = b.freeObjects
  stack : a.stack = b.stack

theorem MemRecord.jsonEntry_eq_iff (a b : MemRecord) :
    a.jsonEntry = b.jsonEntry ↔ a.Agrees b := by
  rw [jsonEntry, jsonEntry, MemEntry.mk.injEq, agrees_iff]

/-- What the text of a blocking record tells. -/
structure BlockEntry where
  count : Int64
  cycles : Int64
  stack : List Address

namespace BlockEntry

def value (entry : BlockEntry) : Value :=
  .object [
    ("count", ofSigned entry.count),
    ("cycles", ofSigned entry.cycles),
    ("stack", ofStack entry.stack)]

def ofValue? (value : Value) : Option BlockEntry := do
  let count ← (← value.member? "count").signed?
  let cycles ← (← value.member? "cycles").signed?
  let stack ← (← value.member? "stack").stack?
  return ⟨count, cycles, stack⟩

theorem ofValue?_value (entry : BlockEntry) : ofValue? entry.value = some entry := by
  simp [ofValue?, value, member?, List.lookup_cons]

theorem fits_value (entry : BlockEntry) : entry.value.Fits 2 := by
  simp [value, Fits, fits_ofStack, ofSigned]

end BlockEntry

def BlockRecord.jsonEntry (record : BlockRecord) : BlockEntry where
  count := record.count
  cycles := record.cycles
  stack := record.stack

theorem BlockRecord.pieces_jsonEntry (record : BlockRecord) :
    record.jsonEntry.value.pieces = record.json := by
  simp [json, BlockEntry.value, pieces, pieces_ofSigned, pieces_ofStack, jsonEntry]

/-- The same counters, and the same stack up to its first zero slot. -/
@[mk_iff]
structure BlockRecord.Agrees (a b : BlockRecord) : Prop where
  count : a.count = b.count
  cycles : a.cycles = b.cycles
  stack : a.stack = b.stack

theorem BlockRecord.jsonEntry_eq_iff (a b : BlockRecord) :
    a.jsonEntry = b.jsonEntry ↔ a.Agrees b := by
  rw [jsonEntry, jsonEntry, BlockEntry.mk.injEq, agrees_iff]

/-! ## Snapshots -/

/-- A text that is read back differs wherever what is read differs. -/
theorem text_eq_iff_of_read {σ ρ : Type} {json : σ → Pieces} {reading : σ → ρ}
    {read : String → Option ρ} (hRead : ∀ a, read (text (json a)) = some (reading a)) {a b : σ}
    (hJson : reading a = reading b → json a = json b) :
    text (json a) = text (json b) ↔ reading a = reading b := by
  constructor
  · intro hText
    have hSame := (hRead a).symm.trans ((congrArg read hText).trans (hRead b))
    exact Option.some.inj hSame
  · exact fun hSame => congrArg text (hJson hSame)

/-- What the text of a memory snapshot tells. -/
structure MemReading where
  collectionCycles : Nat
  inUseBytes : Int64
  inUseObjects : Int64
  entries : List MemEntry

namespace MemReading

def value (reading : MemReading) : Value :=
  .object [
    ("collection_cycles", .integer reading.collectionCycles),
    ("in_use_bytes", ofSigned reading.inUseBytes),
    ("in_use_objects", ofSigned reading.inUseObjects),
    ("records", .array (reading.entries.map MemEntry.value))]

def ofValue? (value : Value) : Option MemReading := do
  let collectionCycles ← (← value.member? "collection_cycles").nat?
  let inUseBytes ← (← value.member? "in_use_bytes").signed?
  let inUseObjects ← (← value.member? "in_use_objects").signed?
  let entries ← (← (← value.member? "records").items?).mapM MemEntry.ofValue?
  return ⟨collectionCycles, inUseBytes, inUseObjects, entries⟩

theorem ofValue?_value (reading : MemReading) : ofValue? reading.value = some reading := by
  simp [ofValue?, value, member?, List.lookup_cons, items?, mapM_map_eq MemEntry.ofValue?_value]

theorem fits_value (reading : MemReading) : reading.value.Fits 4 := by
  simp [value, Fits, MemEntry.fits_value, ofSigned]

/-- Reads the text of a memory snapshot. -/
def ofText? (text : String) : Option MemReading := (Value.ofText? 4 text).bind ofValue?

theorem ofText?_text (reading : MemReading) :
    ofText? (text reading.value.pieces) = some reading := by
  rw [ofText?, Value.ofText?_text reading.fits_value, Option.bind_some, ofValue?_value]

/-- The reading with some entries, whose totals are those of the entries. -/
def ofEntries (collectionCycles : Nat) (entries : List MemEntry) : MemReading where
  collectionCycles := collectionCycles
  inUseBytes := signedTotal (entries.map MemEntry.inUseBytes)
  inUseObjects := signedTotal (entries.map MemEntry.inUseObjects)
  entries := entries

theorem ofEntries_eq_iff {cycles others : Nat} {entries more : List MemEntry} :
    ofEntries cycles entries = ofEntries others more ↔ cycles = others ∧ entries = more := by
  constructor
  · intro hSame
    exact ⟨congrArg collectionCycles hSame, congrArg MemReading.entries hSame⟩
  · rintro ⟨rfl, rfl⟩
    rfl

end MemReading

namespace MemSnapshot

/-- What the text of the snapshot tells. -/
def reading (snapshot : MemSnapshot) : MemReading :=
  .ofEntries snapshot.collectionCycles (snapshot.records.map MemRecord.jsonEntry)

theorem pieces_reading (snapshot : MemSnapshot) :
    snapshot.reading.value.pieces = snapshot.json := by
  have hBytes : snapshot.reading.inUseBytes = snapshot.inUseBytes :=
    congrArg signedTotal List.map_map
  have hObjects : snapshot.reading.inUseObjects = snapshot.inUseObjects :=
    congrArg signedTotal List.map_map
  rw [json, MemReading.value, hBytes, hObjects]
  simp [pieces, pieces_ofSigned, reading, MemReading.ofEntries, Function.comp_def,
    MemRecord.pieces_jsonEntry]

theorem ofText?_json (snapshot : MemSnapshot) :
    MemReading.ofText? (text snapshot.json) = some snapshot.reading := by
  rw [← pieces_reading, MemReading.ofText?_text]

theorem text_json_eq_iff (a b : MemSnapshot) :
    text a.json = text b.json ↔ a.reading = b.reading :=
  text_eq_iff_of_read ofText?_json
    (fun hSame => by rw [← a.pieces_reading, hSame, b.pieces_reading])

theorem reading_eq_iff (a b : MemSnapshot) :
    a.reading = b.reading ↔ a.collectionCycles = b.collectionCycles ∧
      List.Forall₂ MemRecord.Agrees a.records b.records := by
  rw [reading, reading, MemReading.ofEntries_eq_iff, ← List.forall₂_eq_eq_eq,
    List.forall₂_map_left_iff, List.forall₂_map_right_iff]
  simp only [MemRecord.jsonEntry_eq_iff]

end MemSnapshot

/-- What the text of a blocking snapshot tells. -/
structure BlockReading where
  totalCount : Int64
  totalCycles : Int64
  entries : List BlockEntry

namespace BlockReading

def value (reading : BlockReading) : Value :=
  .object [
    ("count", ofSigned reading.totalCount),
    ("cycles", ofSigned reading.totalCycles),
    ("records", .array (reading.entries.map BlockEntry.value))]

def ofValue? (value : Value) : Option BlockReading := do
  let totalCount ← (← value.member? "count").signed?
  let totalCycles ← (← value.member? "cycles").signed?
  let entries ← (← (← value.member? "records").items?).mapM BlockEntry.ofValue?
  return ⟨totalCount, totalCycles, entries⟩

theorem ofValue?_value (reading : BlockReading) : ofValue? reading.value = some reading := by
  simp [ofValue?, value, member?, List.lookup_cons, items?, mapM_map_eq BlockEntry.ofValue?_value]

theorem fits_value (reading : BlockReading) : reading.value.Fits 4 := by
  simp [value, Fits, BlockEntry.fits_value, ofSigned]

/-- Reads the text of a blocking snapshot. -/
def ofText? (text : String) : Option BlockReading := (Value.ofText? 4 text).bind ofValue?

theorem ofText?_text (reading : BlockReading) :
    ofText? (text reading.value.pieces) = some reading := by
  rw [ofText?, Value.ofText?_text reading.fits_value, Option.bind_some, ofValue?_value]

/-- The reading with some entries, whose totals are those of the entries. -/
def ofEntries (entries : List BlockEntry) : BlockReading where
  totalCount := signedTotal (entries.map BlockEntry.count)
  totalCycles := signedTotal (entries.map BlockEntry.cycles)
  entries := entries

theorem ofEntries_inj {entries more : List BlockEntry} :
    ofEntries entries = ofEntries more ↔ entries = more :=
  ⟨congrArg BlockReading.entries, congrArg ofEntries⟩

end BlockReading

namespace BlockSnapshot

/-- What the text of the snapshot tells. -/
def reading (snapshot : BlockSnapshot) : BlockReading :=
  .ofEntries (snapshot.records.map BlockRecord.jsonEntry)

theorem pieces_reading (snapshot : BlockSnapshot) :
    snapshot.reading.value.pieces = snapshot.json := by
  have hCount : snapshot.reading.totalCount = snapshot.totalCount :=
    congrArg signedTotal List.map_map
  have hCycles : snapshot.reading.totalCycles = snapshot.totalCycles :=
    congrArg signedTotal List.map_map
  rw [json, BlockReading.value, hCount, hCycles]
  simp [pieces, pieces_ofSigned, reading, BlockReading.ofEntries, Function.comp_def,
    BlockRecord.pieces_jsonEntry]

theorem ofText?_json (snapshot : BlockSnapshot) :
    BlockReading.ofText? (text snapshot.json) = some snapshot.reading := by
  rw [← pieces_reading, BlockReading.ofText?_text]

theorem text_json_eq_iff (a b : BlockSnapshot) :
    text a.json = text b.json ↔ a.reading = b.reading :=
  text_eq_iff_of_read ofText?_json
    (fun hSame => by rw [← a.pieces_reading, hSame, b.pieces_reading])

theorem reading_eq_iff (a b : BlockSnapshot) :
    a.reading = b.reading ↔ List.Forall₂ BlockRecord.Agrees a.records b.records := by
  rw [reading, reading, BlockReading.ofEntries_inj, ← List.forall₂_eq_eq_eq,
    List.forall₂_map_left_iff, List.forall₂_map_right_iff]
  simp only [BlockRecord.jsonEntry_eq_iff]

end BlockSnapshot

/-- The JSON form of a snapshot loses nothing but the slots after the first zero of a stack:
two snapshots have one text exactly when they agree otherwise, and each is read back from its
text, with totals that are those of the records read. -/
theorem json_lossless :
    (∀ a b : MemSnapshot, text a.json = text b.json ↔
      a.collectionCycles = b.collectionCycles ∧
        List.Forall₂ MemRecord.Agrees a.records b.records) ∧
    (∀ a b : BlockSnapshot, text a.json = text b.json ↔
      List.Forall₂ BlockRecord.Agrees a.records b.records) ∧
    (∀ snapshot : MemSnapshot, MemReading.ofText? (text snapshot.json) =
      some (.ofEntries snapshot.collectionCycles (snapshot.records.map MemRecord.jsonEntry))) ∧
    (∀ snapshot : BlockSnapshot, BlockReading.ofText? (text snapshot.json) =
      some (.ofEntries (snapshot.records.map BlockRecord.jsonEntry))) := by
  refine ⟨fun a b => ?_, fun a b => ?_, MemSnapshot.ofText?_json, BlockSnapshot.ofText?_json⟩
  · rw [a.text_json_eq_iff, a.reading_eq_iff]
  · rw [a.text_json_eq_iff, a.reading_eq_iff]

end SiteProfiler
