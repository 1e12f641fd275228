import Mathlib.Data.Fintype.Card
import Mathlib.Data.List.TakeWhile
import SiteProfiler.Profile.Delivery
import SiteProfiler.Proofs.Pprof.Interning
import SiteProfiler.Proofs.Pprof.RoundTrip

/-!
# What an exported profile tells of its snapshot

A profile depicts a snapshot if the stacks and the values of all records can be read off it, in
order, and if its tables hold what is needed for that and nothing else.  The bytes of an export
decode to such a profile.
-/

namespace SiteProfiler.Pprof

/-- The text that an index stands for, if it is inside the table. -/
def textAt? (texts : List String) (index : Int64) : Option String :=
  index.toInt.toNat?.bind (texts[·]?)

namespace Profile

/-- The address of the location with an id, if there is one. -/
def address? (profile : Profile) (id : UInt64) : Option Address :=
  (profile.locations.find? fun location => location.id = id).map Location.address

/-- The stack of a sample, with no address where an id leads nowhere. -/
def stackOf (profile : Profile) (sample : Sample) : List (Option Address) :=
  sample.locationIds.map profile.address?

/-- The indices of texts: of the sample types, of the period type and of the default type. -/
def textIndices (profile : Profile) : List Int64 :=
  (profile.sampleTypes ++ profile.periodType.toList).flatMap (fun type => [type.type, type.unit]) ++
    [profile.defaultSampleType]

/-- The names of a value type: of what is counted, and of its unit. -/
def namesOf (profile : Profile) (type : ValueType) : Option String × Option String :=
  (textAt? profile.stringTable type.type, textAt? profile.stringTable type.unit)

/-- The profile tells the stacks and the values of records in order, and the names and units of
the values. -/
structure Depicts (profile : Profile) (callStacks : List (List Address))
    (figures : List (List Int64)) (names : List (String × String)) : Prop where
  /-- The locations of each sample lead to the addresses of its record's stack. -/
  located : profile.samples.map profile.stackOf = callStacks.map (·.map some)
  told : profile.samples.map Sample.values = figures
  /-- Locations are numbered from 1 without gaps. -/
  ids : profile.locations.map (·.id.toNat) = List.range' 1 profile.locations.length
  /-- The locations are those of the distinct addresses, in the order of first appearance. -/
  addresses : profile.locations.map Location.address = callStacks.flatten.eraseDups
  /-- No address has two locations. -/
  distinct : (profile.locations.map Location.address).Nodup
  /-- Every location is that of some sample. -/
  used : ∀ location ∈ profile.locations, ∃ sample ∈ profile.samples,
    location.id ∈ sample.locationIds
  firstText : profile.stringTable.head? = some ""
  distinctTexts : profile.stringTable.Nodup
  named : profile.sampleTypes.map profile.namesOf = names.map fun name => (some name.1, some name.2)
  indices : ∀ index ∈ profile.textIndices,
    0 ≤ index.toInt ∧ index.toInt < profile.stringTable.length

end Profile

/-! ## Samples and locations -/

theorem sampleAll_cons (located : List Address) (entry : Entry) (rest : List Entry) :
    sampleAll located (entry :: rest) =
      (⟨(internAll located entry.stack).1.map fun index => UInt64.ofNat (index + 1),
          entry.values⟩ :: (sampleAll (internAll located entry.stack).2 rest).1,
        (sampleAll (internAll located entry.stack).2 rest).2) := rfl

theorem prefix_sampleAll (located : List Address) (entries : List Entry) :
    located <+: (sampleAll located entries).2 := by
  induction entries generalizing located with
  | nil => exact List.prefix_rfl
  | cons entry rest ih => exact (prefix_internAll located entry.stack).trans (ih _)

theorem located_sampleAll (seen : List Address) (entries : List Entry) :
    (sampleAll seen.eraseDups entries).2 =
      (seen ++ (entries.map Entry.stack).flatten).eraseDups := by
  induction entries generalizing seen with
  | nil => simp [sampleAll]
  | cons entry rest ih =>
    rw [sampleAll_cons, known_internAll_eraseDups, ih, List.map_cons, List.flatten_cons,
      List.append_assoc]

theorem values_sampleAll (located : List Address) (entries : List Entry) :
    (sampleAll located entries).1.map Sample.values = entries.map Entry.values := by
  induction entries generalizing located with
  | nil => rfl
  | cons entry rest ih => rw [sampleAll_cons, List.map_cons, List.map_cons, ih]

theorem toNat_locationId {index count : Nat} (hIndex : index < count) (hCount : count < 2 ^ 64) :
    (UInt64.ofNat (index + 1)).toNat = index + 1 := by
  rw [UInt64.toNat_ofNat']
  omega

/-- The location with the id of a position is the one at that position. -/
theorem find?_locate {located : List Address} (hCount : located.length < 2 ^ 64) {index : Nat}
    {address : Address} (hAddress : located[index]? = some address) :
    (locate located).find? (fun location => location.id = UInt64.ofNat (index + 1)) =
      some ⟨UInt64.ofNat (index + 1), 0, address, false⟩ := by
  obtain ⟨hIndex, rfl⟩ := List.getElem?_eq_some_iff.1 hAddress
  rw [List.find?_eq_some_iff_getElem]
  refine ⟨decide_eq_true rfl, index, by simpa [locate] using hIndex, by simp [locate], ?_⟩
  intro earlier hEarlier
  simp only [locate, List.getElem_mapIdx, Bool.not_eq_true', decide_eq_false_iff_not]
  intro hSame
  have hEarlierId := toNat_locationId (hEarlier.trans hIndex) hCount
  rw [hSame, toNat_locationId hIndex hCount] at hEarlierId
  omega

theorem length_locate (located : List Address) : (locate located).length = located.length :=
  List.length_mapIdx

theorem addresses_locate (located : List Address) :
    (locate located).map Location.address = located := by
  apply List.ext_getElem
  · rw [List.length_map, length_locate]
  · intro index _ _
    simp [locate]

theorem ids_locate {located : List Address} (hCount : located.length < 2 ^ 64) :
    (locate located).map (·.id.toNat) = List.range' 1 located.length := by
  apply List.ext_getElem
  · rw [List.length_map, length_locate, List.length_range']
  · intro index hIndex _
    rw [List.length_map, length_locate] at hIndex
    simp only [List.getElem_map, locate, List.getElem_mapIdx, List.getElem_range']
    rw [toNat_locationId hIndex hCount]
    omega

/-- The ids of each sample lead to the stack of its entry, in every list of addresses that the
located ones grow into. -/
theorem located_samples (located : List Address) (entries : List Entry) {all : List Address}
    (hPrefix : (sampleAll located entries).2 <+: all) (hCount : all.length < 2 ^ 64) :
    (sampleAll located entries).1.map (fun sample => sample.locationIds.map fun id =>
        ((locate all).find? fun location => location.id = id).map Location.address) =
      entries.map (·.stack.map some) := by
  induction entries generalizing located with
  | nil => rfl
  | cons entry rest ih =>
    rw [sampleAll_cons] at hPrefix ⊢
    have hKnown : (internAll located entry.stack).2 <+: all :=
      (prefix_sampleAll _ rest).trans hPrefix
    have hStack := map_getElem?_internAll located entry.stack hKnown
    rw [List.map_cons, List.map_cons, ih (internAll located entry.stack).2 hPrefix, ← hStack,
      List.map_map]
    congr 1
    apply List.map_congr_left
    intro index hIndex
    obtain ⟨address, -, hAddress⟩ := List.mem_map.1 (hStack ▸ List.mem_map_of_mem hIndex)
    rw [Function.comp_apply, find?_locate hCount hAddress.symm, ← hAddress]
    rfl

/-- Distinct addresses other than zero can be counted in a word. -/
theorem length_lt_of_nodup {addresses : List Address} (hNodup : addresses.Nodup)
    (hNonzero : 0 ∉ addresses) : addresses.length < 2 ^ 64 := by
  have hWords : ((0 :: addresses).map UInt64.toFin).Nodup :=
    (List.nodup_cons.2 ⟨hNonzero, hNodup⟩).map fun _ _ => UInt64.toFin_inj.1
  have hLength := hWords.length_le_card
  rw [Fintype.card_fin, List.length_map, List.length_cons] at hLength
  exact hLength

/-- There are fewer distinct addresses in the stacks than words. -/
theorem length_sampleAll_lt {entries : List Entry} (hNonzero : ∀ entry ∈ entries, 0 ∉ entry.stack) :
    (sampleAll [] entries).2.length < 2 ^ 64 := by
  have hAll : (sampleAll [] entries).2 = (entries.map Entry.stack).flatten.eraseDups :=
    located_sampleAll [] entries
  rw [hAll]
  refine length_lt_of_nodup (nodup_eraseDups _) fun hZero => ?_
  rw [List.mem_eraseDups, List.mem_flatten] at hZero
  obtain ⟨stack, hStack, hZero⟩ := hZero
  obtain ⟨entry, hEntry, rfl⟩ := List.mem_map.1 hStack
  exact hNonzero entry hEntry hZero

/-! ## Texts -/

theorem textAt?_ofNat {texts : List String} {index : Nat} (hIndex : index < 2 ^ 63) :
    textAt? texts (Int64.ofNat index) = texts[index]? := by
  rw [textAt?, Int64.toInt_ofNat_of_lt hIndex]
  rfl

theorem inside_of_textAt? {texts : List String} {index : Int64} {text : String}
    (hText : textAt? texts index = some text) :
    0 ≤ index.toInt ∧ index.toInt < texts.length := by
  obtain ⟨position, hPosition, hText⟩ := Option.bind_eq_some_iff.1 hText
  obtain ⟨hInside, -⟩ := List.getElem?_eq_some_iff.1 hText
  have hIndex : index.toInt = position := Int.mem_toNat?.1 hPosition
  rw [hIndex]
  exact ⟨Int.natCast_nonneg position, Int.ofNat_lt.2 hInside⟩

theorem nameTypes_cons (names : List String) (name : String × String)
    (rest : List (String × String)) :
    nameTypes names (name :: rest) =
      (⟨Int64.ofNat (intern names name.1).1,
          Int64.ofNat (intern (intern names name.1).2 name.2).1⟩ ::
          (nameTypes (intern (intern names name.1).2 name.2).2 rest).1,
        (nameTypes (intern (intern names name.1).2 name.2).2 rest).2) := rfl

theorem prefix_nameTypes (names : List String) (types : List (String × String)) :
    names <+: (nameTypes names types).2 := by
  induction types generalizing names with
  | nil => exact List.prefix_rfl
  | cons name rest ih =>
    exact ((prefix_intern names name.1).trans (prefix_intern _ name.2)).trans (ih _)

theorem nodup_nameTypes {names : List String} (hNodup : names.Nodup)
    (types : List (String × String)) : (nameTypes names types).2.Nodup := by
  induction types generalizing names with
  | nil => exact hNodup
  | cons name rest ih => exact ih (nodup_intern (nodup_intern hNodup name.1) name.2)

/-- The indices of each type lead to its names, in every table that the names grow into. -/
theorem named_nameTypes (names : List String) (types : List (String × String))
    {all : List String} (hPrefix : (nameTypes names types).2 <+: all)
    (hCount : all.length < 2 ^ 63) :
    (nameTypes names types).1.map (fun type => (textAt? all type.type, textAt? all type.unit)) =
      types.map fun name => (some name.1, some name.2) := by
  induction types generalizing names with
  | nil => rfl
  | cons name rest ih =>
    rw [nameTypes_cons] at hPrefix ⊢
    have hBoth := (prefix_nameTypes (intern (intern names name.1).2 name.2).2 rest).trans hPrefix
    have hType : all[(intern names name.1).1]? = some name.1 :=
      getElem?_of_prefix ((prefix_intern _ name.2).trans hBoth) (getElem?_intern names name.1)
    have hUnit : all[(intern (intern names name.1).2 name.2).1]? = some name.2 :=
      getElem?_of_prefix hBoth (getElem?_intern (intern names name.1).2 name.2)
    have hTypeBound := (List.getElem?_eq_some_iff.1 hType).1
    have hUnitBound := (List.getElem?_eq_some_iff.1 hUnit).1
    rw [List.map_cons, List.map_cons, ih (intern (intern names name.1).2 name.2).2 hPrefix,
      textAt?_ofNat (by omega), textAt?_ofNat (by omega), hType, hUnit]

/-! ## Built profiles -/

/-- The table of texts of a profile with the given types. -/
def textTable (types : List (String × String)) (defaultType : String) : List String :=
  (intern (nameTypes [""] types).2 defaultType).2

namespace Profile

theorem used_of_located {profile : Profile} {callStacks : List (List Address)}
    (hLocated : profile.samples.map profile.stackOf = callStacks.map (·.map some))
    (hAddresses : profile.locations.map Location.address = callStacks.flatten.eraseDups)
    (hDistinct : (profile.locations.map Location.address).Nodup) {location : Location}
    (hLocation : location ∈ profile.locations) :
    ∃ sample ∈ profile.samples, location.id ∈ sample.locationIds := by
  have hAddress : location.address ∈ callStacks.flatten :=
    List.mem_eraseDups.1 (hAddresses ▸ List.mem_map_of_mem hLocation)
  obtain ⟨stack, hStack, hAddress⟩ := List.mem_flatten.1 hAddress
  obtain ⟨sample, hSample, hSampleStack⟩ := List.mem_map.1 (hLocated ▸ List.mem_map_of_mem hStack)
  refine ⟨sample, hSample, ?_⟩
  have hSome : some location.address ∈ profile.stackOf sample :=
    hSampleStack ▸ List.mem_map_of_mem hAddress
  obtain ⟨id, hId, hFound⟩ := List.mem_map.1 hSome
  obtain ⟨found, hFind, hSame⟩ := Option.map_eq_some_iff.1 hFound
  have hFoundId : found.id = id := by simpa using List.find?_some hFind
  have hFoundMem := List.mem_of_find?_eq_some hFind
  rw [← List.inj_on_of_nodup_map hDistinct hFoundMem hLocation hSame, hFoundId]
  exact hId

theorem inside_of_named {profile : Profile} {names : List (String × String)}
    (hNamed : profile.sampleTypes.map profile.namesOf =
      names.map fun name => (some name.1, some name.2))
    {type : ValueType} (hType : type ∈ profile.sampleTypes) {index : Int64}
    (hIndex : index ∈ [type.type, type.unit]) :
    0 ≤ index.toInt ∧ index.toInt < profile.stringTable.length := by
  obtain ⟨name, -, hName⟩ := List.mem_map.1 (hNamed ▸ List.mem_map_of_mem hType)
  obtain ⟨hFirst, hSecond⟩ := Prod.mk.inj hName
  rcases List.mem_pair.1 hIndex with rfl | rfl
  · exact inside_of_textAt? hFirst.symm
  · exact inside_of_textAt? hSecond.symm

end Profile

theorem inside_textIndices {types : List (String × String)} {defaultType : String}
    (hTexts : (textTable types defaultType).length < 2 ^ 63) {entries : List Entry}
    (hNamed : (build types defaultType entries).sampleTypes.map
      (build types defaultType entries).namesOf =
        types.map fun name => (some name.1, some name.2)) :
    ∀ index ∈ (build types defaultType entries).textIndices,
      0 ≤ index.toInt ∧ index.toInt < (build types defaultType entries).stringTable.length := by
  have hDefault : textAt? (textTable types defaultType)
      (Int64.ofNat (intern (nameTypes [""] types).2 defaultType).1) = some defaultType := by
    have hText := getElem?_intern (nameTypes [""] types).2 defaultType
    have hBound := (List.getElem?_eq_some_iff.1 hText).1
    rw [textAt?_ofNat (hBound.trans hTexts)]
    exact hText
  intro index hIndex
  rcases List.mem_append.1 hIndex with hType | hLast
  · obtain ⟨type, hType, hIndex⟩ := List.mem_flatMap.1 hType
    refine Profile.inside_of_named hNamed ?_ hIndex
    rcases List.mem_append.1 hType with hType | hPeriod
    · exact hType
    · exact List.mem_of_head? (Option.mem_toList.1 hPeriod)
  · rw [List.mem_singleton.1 hLast]
    exact inside_of_textAt? hDefault

theorem depicts_build {types : List (String × String)} {defaultType : String}
    (hTexts : (textTable types defaultType).length < 2 ^ 63) {entries : List Entry}
    (hNonzero : ∀ entry ∈ entries, 0 ∉ entry.stack) :
    (build types defaultType entries).Depicts (entries.map Entry.stack)
      (entries.map Entry.values) types := by
  have hAll : (sampleAll [] entries).2 = (entries.map Entry.stack).flatten.eraseDups :=
    located_sampleAll [] entries
  have hCount := length_sampleAll_lt hNonzero
  have hLocated : (build types defaultType entries).samples.map
      (build types defaultType entries).stackOf = (entries.map Entry.stack).map (·.map some) :=
    (located_samples [] entries List.prefix_rfl hCount).trans (List.map_map ..).symm
  have hLocations : (build types defaultType entries).locations.map Location.address =
      (entries.map Entry.stack).flatten.eraseDups := (addresses_locate _).trans hAll
  have hDistinct : ((build types defaultType entries).locations.map Location.address).Nodup := by
    rw [hLocations]
    exact nodup_eraseDups _
  have hTable : (nameTypes [""] types).2 <+: textTable types defaultType := prefix_intern _ _
  have hNamed : (build types defaultType entries).sampleTypes.map
      (build types defaultType entries).namesOf =
        types.map fun name => (some name.1, some name.2) :=
    named_nameTypes [""] types hTable hTexts
  refine {
    located := hLocated
    told := values_sampleAll [] entries
    ids := (ids_locate hCount).trans (by rw [← length_locate]; rfl)
    addresses := hLocations
    distinct := hDistinct
    used := fun _ hLocation => Profile.used_of_located hLocated hLocations hDistinct hLocation
    firstText := ?_
    distinctTexts := nodup_intern (nodup_nameTypes (List.nodup_singleton "") types) defaultType
    named := hNamed
    indices := inside_textIndices hTexts hNamed }
  obtain ⟨more, hMore⟩ := (prefix_nameTypes [""] types).trans hTable
  show (textTable types defaultType).head? = some ""
  rw [← hMore]
  rfl

/-- Samples of stacks that fit in a record are short. -/
theorem Profile.Depicts.measurable {profile : Profile} {callStacks : List (List Address)}
    {figures : List (List Int64)} {names : List (String × String)}
    (depicts : profile.Depicts callStacks figures names)
    (hStacks : ∀ stack ∈ callStacks, stack.length ≤ maxFrames)
    (hFigures : ∀ values ∈ figures, values.length ≤ 4)
    (hTexts : ∀ text ∈ profile.stringTable, (textBytes text).length < 2 ^ 64)
    (hComments : profile.comments = []) : profile.Measurable := by
  refine ⟨fun sample hSample => ?_, hTexts, by rw [hComments]; decide⟩
  obtain ⟨stack, hStack, hSampleStack⟩ :=
    List.mem_map.1 (depicts.located ▸ List.mem_map_of_mem hSample)
  have hIds : sample.locationIds.length = stack.length := by
    simpa [stackOf] using (congrArg List.length hSampleStack).symm
  have hStackBound := hStacks stack hStack
  have hValuesBound := hFigures sample.values (depicts.told ▸ List.mem_map_of_mem hSample)
  have hLength := sample.length_encode_le
  simp only [maxFrames] at hStackBound
  omega

end SiteProfiler.Pprof

namespace SiteProfiler

open Pprof

theorem StackField.zero_notMem_stack (field : StackField) : 0 ∉ field.stack := fun hZero => by
  simpa using List.mem_takeWhile_imp hZero

theorem StackField.length_stack_le (field : StackField) : field.stack.length ≤ maxFrames :=
  Nat.le_trans (List.takeWhile_sublist _).length_le (Nat.le_of_eq field.length_eq)

theorem deliverProfile_unlimited (profile : Profile) :
    deliverProfile profile .unlimited =
      (.ok (), { Sink.unlimited with taken := profile.encode.toArray }) := by
  simp [deliverProfile, Sink.write, Sink.room, Sink.unlimited, Except.mapError]

/-- A profile built from records is measurable: a stack in a record is short. -/
theorem measurable_build {types : List (String × String)} {defaultType : String}
    (hTable : (textTable types defaultType).length < 2 ^ 63)
    (hTexts : ∀ text ∈ textTable types defaultType, (textBytes text).length < 2 ^ 64)
    {entries : List Entry}
    (hEntries : ∀ entry ∈ entries,
      (∃ field : StackField, entry.stack = field.stack) ∧ entry.values.length ≤ 4) :
    (build types defaultType entries).Measurable := by
  refine (depicts_build hTable ?_).measurable ?_ ?_ hTexts rfl
  · intro entry hEntry
    obtain ⟨⟨field, hField⟩, -⟩ := hEntries entry hEntry
    exact hField ▸ field.zero_notMem_stack
  · intro stack hStack
    obtain ⟨entry, hEntry, rfl⟩ := List.mem_map.1 hStack
    obtain ⟨⟨field, hField⟩, -⟩ := hEntries entry hEntry
    exact hField ▸ field.length_stack_le
  · intro values hValues
    obtain ⟨entry, hEntry, rfl⟩ := List.mem_map.1 hValues
    exact (hEntries entry hEntry).2

/-- What is delivered of a profile built from records is decoded to that profile. -/
theorem delivered_build {types : List (String × String)} {defaultType : String}
    (hTable : (textTable types defaultType).length < 2 ^ 63)
    (hTexts : ∀ text ∈ textTable types defaultType, (textBytes text).length < 2 ^ 64)
    {entries : List Entry}
    (hEntries : ∀ entry ∈ entries,
      (∃ field : StackField, entry.stack = field.stack) ∧ entry.values.length ≤ 4) :
    ∃ sink profile, deliverProfile (build types defaultType entries) .unlimited = (.ok (), sink) ∧
      Profile.decode sink.taken.toList = .ok profile ∧
      profile.Depicts (entries.map Entry.stack) (entries.map Entry.values) types := by
  have depicts : (build types defaultType entries).Depicts (entries.map Entry.stack)
      (entries.map Entry.values) types := by
    refine depicts_build hTable fun entry hEntry => ?_
    obtain ⟨⟨field, hField⟩, -⟩ := hEntries entry hEntry
    exact hField ▸ field.zero_notMem_stack
  exact ⟨_, _, deliverProfile_unlimited _,
    Profile.decode_encode_of_measurable (measurable_build hTable hTexts hEntries), depicts⟩

/-- The bytes of an exported snapshot decode to a profile that tells the stack and the figures of
every record in order, under the names of the figures, and holds nothing else. -/
theorem export_loses_nothing :
    (∀ snapshot : MemSnapshot, ∃ sink profile,
      snapshot.exportPprof .unlimited = (.ok (), sink) ∧
      Profile.decode sink.taken.toList = .ok profile ∧
      profile.Depicts (snapshot.records.map MemRecord.stack)
        (snapshot.records.map fun record =>
          [record.allocObjects, record.allocBytes, record.inUseObjects, record.inUseBytes])
        [("alloc_objects", "count"), ("alloc_space", "bytes"),
          ("inuse_objects", "count"), ("inuse_space", "bytes")]) ∧
    (∀ snapshot : BlockSnapshot, ∃ sink profile,
      snapshot.exportPprof .unlimited = (.ok (), sink) ∧
      Profile.decode sink.taken.toList = .ok profile ∧
      profile.Depicts (snapshot.records.map BlockRecord.stack)
        (snapshot.records.map fun record => [record.count, record.cycles])
        [("contentions", "count"), ("delay", "cycles")]) := by
  constructor
  · intro snapshot
    have hTable : (textTable [("alloc_objects", "count"), ("alloc_space", "bytes"),
        ("inuse_objects", "count"), ("inuse_space", "bytes")] "inuse_space").length < 2 ^ 63 := by
      decide
    have hEntries : ∀ entry ∈ snapshot.records.map MemRecord.entry,
        (∃ field : StackField, entry.stack = field.stack) ∧ entry.values.length ≤ 4 := by
      intro entry hEntry
      obtain ⟨record, -, rfl⟩ := List.mem_map.1 hEntry
      exact ⟨⟨record.field, rfl⟩, Nat.le_refl 4⟩
    obtain ⟨sink, profile, hDelivered, hDecoded, depicts⟩ :=
      delivered_build hTable (by decide) hEntries
    rw [List.map_map, List.map_map] at depicts
    exact ⟨sink, profile, hDelivered, hDecoded, depicts⟩
  · intro snapshot
    have hTable : (textTable [("contentions", "count"), ("delay", "cycles")]
        "delay").length < 2 ^ 63 := by
      decide
    have hEntries : ∀ entry ∈ snapshot.records.map BlockRecord.entry,
        (∃ field : StackField, entry.stack = field.stack) ∧ entry.values.length ≤ 4 := by
      intro entry hEntry
      obtain ⟨record, -, rfl⟩ := List.mem_map.1 hEntry
      exact ⟨⟨record.field, rfl⟩, Nat.le_add_right 2 2⟩
    obtain ⟨sink, profile, hDelivered, hDecoded, depicts⟩ :=
      delivered_build hTable (by decide) hEntries
    rw [List.map_map, List.map_map] at depicts
    exact ⟨sink, profile, hDelivered, hDecoded, depicts⟩

end SiteProfiler
