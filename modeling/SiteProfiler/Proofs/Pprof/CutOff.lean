import Mathlib.Data.List.Forall2
import SiteProfiler.Proofs.Pprof.Depiction
import SiteProfiler.Proofs.Pprof.Records

/-!
# Encodings that were cut off

The first bytes of an encoded profile decode only if they end between two of its records.  They
are then the encoding of a profile themselves: one that has the first items of each list and of
the numbers those that were written so far.  A sink that fails has taken such bytes.
-/

namespace SiteProfiler.Pprof

/-- The bytes are whole records of a profile. -/
def Whole (bytes : List UInt8) : Prop := ∃ fields, Records groupLimit fields bytes

/-- The first bytes end before the first record of all the bytes, between two of them, or after
the last. -/
def EndsBetweenRecords (first all : List UInt8) : Prop :=
  ∃ rest, all = first ++ rest ∧ Whole first ∧ Whole rest

namespace Profile

/-- A profile holds a part of another: the first items of its lists, and of everything else
nothing or the same. -/
structure PartOf (part profile : Profile) : Prop where
  sampleTypes : part.sampleTypes <+: profile.sampleTypes
  samples : part.samples <+: profile.samples
  locations : part.locations <+: profile.locations
  stringTable : part.stringTable <+: profile.stringTable
  dropFrames : part.dropFrames = 0 ∨ part.dropFrames = profile.dropFrames
  keepFrames : part.keepFrames = 0 ∨ part.keepFrames = profile.keepFrames
  timeNanos : part.timeNanos = 0 ∨ part.timeNanos = profile.timeNanos
  durationNanos : part.durationNanos = 0 ∨ part.durationNanos = profile.durationNanos
  periodType : part.periodType = none ∨ part.periodType = profile.periodType
  period : part.period = 0 ∨ part.period = profile.period
  comments : part.comments <+: profile.comments
  defaultSampleType : part.defaultSampleType = 0 ∨
    part.defaultSampleType = profile.defaultSampleType

/-- The first bytes of an encoded profile: they decode exactly if they end between records, and
then to a part of the profile. -/
structure CutOff (profile : Profile) (bytes : List UInt8) : Prop where
  of_between : EndsBetweenRecords bytes profile.encode →
    ∃ part, decode bytes = .ok part ∧ part.PartOf profile
  of_inside : ¬ EndsBetweenRecords bytes profile.encode → ∃ error, decode bytes = .error error

end Profile

/-! ## The records of an encoding -/

/-- The record of a number, if it is written. -/
def scalarRecords (number : Nat) (word : UInt64) : List (List UInt8) :=
  if word = 0 then [] else [key number .varint ++ varint word]

/-- The record of a packed list, if it is written. -/
def packedRecords (number : Nat) (words : List UInt64) : List (List UInt8) :=
  if words = [] then [] else [delimited number (words.flatMap varint)]

/-- The records of an encoded profile, by fields. -/
def Profile.sections (profile : Profile) : List (List (List UInt8)) := [
  profile.sampleTypes.map fun item => delimited 1 item.encode,
  profile.samples.map fun item => delimited 2 item.encode,
  profile.locations.map fun item => delimited 4 item.encode,
  profile.stringTable.map fun text => delimited 6 (textBytes text),
  scalarRecords 7 profile.dropFrames.toUInt64,
  scalarRecords 8 profile.keepFrames.toUInt64,
  scalarRecords 9 profile.timeNanos.toUInt64,
  scalarRecords 10 profile.durationNanos.toUInt64,
  profile.periodType.toList.map fun item => delimited 11 item.encode,
  scalarRecords 12 profile.period.toUInt64,
  packedRecords 13 (profile.comments.map Int64.toUInt64),
  scalarRecords 14 profile.defaultSampleType.toUInt64]

theorem flatten_scalarRecords (number : Nat) (word : UInt64) :
    (scalarRecords number word).flatten = scalar number word := by
  unfold scalarRecords scalar
  split
  · rfl
  · exact List.flatten_singleton

theorem flatten_packedRecords (number : Nat) (words : List UInt64) :
    (packedRecords number words).flatten = packed number words := by
  unfold packedRecords packed
  split
  · rfl
  · exact List.flatten_singleton

theorem Profile.flatten_sections (profile : Profile) :
    profile.sections.flatten.flatten = profile.encode := by
  simp only [sections, encode, List.flatten_cons, List.flatten_nil, List.flatten_append,
    List.append_nil, flatten_scalarRecords, flatten_packedRecords, List.flatMap_def,
    List.append_assoc]

theorem record_delimited {room number : Nat} (hNumber : IsFieldNumber number)
    {content : List UInt8} (hLength : content.length < 2 ^ 64) :
    Record (room + 1) ⟨number, .delimited content⟩ (delimited number content) := by
  rw [delimited, List.append_assoc]
  exact .plain (keyOf_key hNumber .delimited) (.delimited (spells_groups hLength))

theorem exists_record_of_mem_map {α : Type} {number : Nat} (hNumber : IsFieldNumber number)
    {content : α → List UInt8} {items : List α}
    (hLength : ∀ item ∈ items, (content item).length < 2 ^ 64) {bytes : List UInt8}
    (hMem : bytes ∈ items.map fun item => delimited number (content item)) :
    ∃ field, Record groupLimit field bytes := by
  obtain ⟨item, hItem, rfl⟩ := List.mem_map.1 hMem
  exact ⟨_, record_delimited hNumber (hLength item hItem)⟩

theorem exists_record_of_mem_scalarRecords {number : Nat} (hNumber : IsFieldNumber number)
    {word : UInt64} {bytes : List UInt8} (hMem : bytes ∈ scalarRecords number word) :
    ∃ field, Record groupLimit field bytes := by
  unfold scalarRecords at hMem
  split at hMem
  · cases hMem
  · obtain rfl := List.mem_singleton.1 hMem
    exact ⟨_, .plain (keyOf_key hNumber .varint) (.word (spells_varint word))⟩

theorem exists_record_of_mem_packedRecords {number : Nat} (hNumber : IsFieldNumber number)
    {words : List UInt64} (hLength : (words.flatMap varint).length < 2 ^ 64)
    {bytes : List UInt8} (hMem : bytes ∈ packedRecords number words) :
    ∃ field, Record groupLimit field bytes := by
  unfold packedRecords at hMem
  split at hMem
  · cases hMem
  · obtain rfl := List.mem_singleton.1 hMem
    exact ⟨_, record_delimited hNumber hLength⟩

theorem Profile.exists_record {profile : Profile} (hMeasurable : profile.Measurable)
    {bytes : List UInt8} (hMem : bytes ∈ profile.sections.flatten) :
    ∃ field, Record groupLimit field bytes := by
  have hType : ∀ item : ValueType, item.encode.length < 2 ^ 64 := fun item => by
    have hLength := item.length_encode_le
    omega
  have hLocation : ∀ item : Location, item.encode.length < 2 ^ 64 := fun item => by
    have hLength := item.length_encode_le
    omega
  simp only [sections, List.flatten_cons, List.flatten_nil, List.mem_append, List.not_mem_nil,
    or_false] at hMem
  rcases hMem with h | h | h | h | h | h | h | h | h | h | h | h
  · exact exists_record_of_mem_map ⟨by decide, by decide⟩ (fun item _ => hType item) h
  · exact exists_record_of_mem_map ⟨by decide, by decide⟩ hMeasurable.samples h
  · exact exists_record_of_mem_map ⟨by decide, by decide⟩ (fun item _ => hLocation item) h
  · exact exists_record_of_mem_map ⟨by decide, by decide⟩ hMeasurable.texts h
  · exact exists_record_of_mem_scalarRecords ⟨by decide, by decide⟩ h
  · exact exists_record_of_mem_scalarRecords ⟨by decide, by decide⟩ h
  · exact exists_record_of_mem_scalarRecords ⟨by decide, by decide⟩ h
  · exact exists_record_of_mem_scalarRecords ⟨by decide, by decide⟩ h
  · exact exists_record_of_mem_map ⟨by decide, by decide⟩ (fun item _ => hType item) h
  · exact exists_record_of_mem_scalarRecords ⟨by decide, by decide⟩ h
  · exact exists_record_of_mem_packedRecords ⟨by decide, by decide⟩ hMeasurable.comments h
  · exact exists_record_of_mem_scalarRecords ⟨by decide, by decide⟩ h

/-! ## The first records -/

/-- The first items of a list of lists are the first items of each of its lists. -/
theorem exists_forall₂_of_prefix_flatten {α : Type} {first : List α} {lists : List (List α)}
    (hPrefix : first <+: lists.flatten) :
    ∃ firsts, List.Forall₂ (· <+: ·) firsts lists ∧ firsts.flatten = first := by
  induction lists generalizing first with
  | nil => exact ⟨[], .nil, (List.prefix_nil.1 hPrefix).symm⟩
  | cons list others ih =>
    rw [List.flatten_cons] at hPrefix
    obtain hShort | ⟨more, rfl⟩ :=
      List.prefix_or_prefix_of_prefix hPrefix (List.prefix_append list others.flatten)
    · obtain ⟨firsts, hFirsts, hNone⟩ := ih List.nil_prefix
      refine ⟨first :: firsts, .cons hShort hFirsts, ?_⟩
      rw [List.flatten_cons, hNone, List.append_nil]
    · obtain ⟨firsts, hFirsts, rfl⟩ := ih ((List.prefix_append_right_inj list).1 hPrefix)
      exact ⟨list :: firsts, .cons List.prefix_rfl hFirsts, rfl⟩

theorem exists_of_prefix_scalarRecords {number : Nat} {value : Int64}
    {first : List (List UInt8)} (hPrefix : first <+: scalarRecords number value.toUInt64) :
    ∃ kept : Int64, (kept = 0 ∨ kept = value) ∧ first = scalarRecords number kept.toUInt64 := by
  cases first with
  | nil => exact ⟨0, .inl rfl, rfl⟩
  | cons record rest =>
    refine ⟨value, .inr rfl, hPrefix.eq_of_length_le ?_⟩
    unfold scalarRecords
    split
    · exact Nat.zero_le _
    · exact Nat.succ_le_succ (Nat.zero_le _)

theorem exists_of_prefix_packedRecords {number : Nat} {values : List Int64}
    {first : List (List UInt8)}
    (hPrefix : first <+: packedRecords number (values.map Int64.toUInt64)) :
    ∃ kept : List Int64, kept <+: values ∧
      first = packedRecords number (kept.map Int64.toUInt64) := by
  cases first with
  | nil => exact ⟨[], List.nil_prefix, rfl⟩
  | cons record rest =>
    refine ⟨values, List.prefix_rfl, hPrefix.eq_of_length_le ?_⟩
    unfold packedRecords
    split
    · exact Nat.zero_le _
    · exact Nat.succ_le_succ (Nat.zero_le _)

theorem exists_of_prefix_toList {α : Type} {record : α → List UInt8} {item : Option α}
    {first : List (List UInt8)} (hPrefix : first <+: item.toList.map record) :
    ∃ kept : Option α, (kept = none ∨ kept = item) ∧ first = kept.toList.map record := by
  cases first with
  | nil => exact ⟨none, .inl rfl, rfl⟩
  | cons record rest =>
    refine ⟨item, .inr rfl, hPrefix.eq_of_length_le ?_⟩
    cases item with
    | none => exact Nat.zero_le _
    | some value => exact Nat.succ_le_succ (Nat.zero_le _)

/-- The first records of an encoding are the records of a part of the profile. -/
theorem Profile.exists_part {profile : Profile} {first : List (List UInt8)}
    (hPrefix : first <+: profile.sections.flatten) :
    ∃ part : Profile, part.PartOf profile ∧ part.sections.flatten = first := by
  obtain ⟨firsts, hFirsts, rfl⟩ := exists_forall₂_of_prefix_flatten hPrefix
  simp only [sections, List.forall₂_cons_right_iff, List.forall₂_nil_right_iff] at hFirsts
  obtain ⟨_, _, h1, ⟨_, _, h2, ⟨_, _, h4, ⟨_, _, h6, ⟨_, _, h7, ⟨_, _, h8, ⟨_, _, h9, ⟨_, _, h10,
    ⟨_, _, h11, ⟨_, _, h12, ⟨_, _, h13, ⟨_, _, h14, rfl, rfl⟩, rfl⟩, rfl⟩, rfl⟩, rfl⟩, rfl⟩, rfl⟩,
    rfl⟩, rfl⟩, rfl⟩, rfl⟩, rfl⟩ := hFirsts
  obtain ⟨sampleTypes, hSampleTypes, rfl⟩ := List.prefix_map_iff.1 h1
  obtain ⟨samples, hSamples, rfl⟩ := List.prefix_map_iff.1 h2
  obtain ⟨locations, hLocations, rfl⟩ := List.prefix_map_iff.1 h4
  obtain ⟨stringTable, hStringTable, rfl⟩ := List.prefix_map_iff.1 h6
  obtain ⟨dropFrames, hDropFrames, rfl⟩ := exists_of_prefix_scalarRecords h7
  obtain ⟨keepFrames, hKeepFrames, rfl⟩ := exists_of_prefix_scalarRecords h8
  obtain ⟨timeNanos, hTimeNanos, rfl⟩ := exists_of_prefix_scalarRecords h9
  obtain ⟨durationNanos, hDurationNanos, rfl⟩ := exists_of_prefix_scalarRecords h10
  obtain ⟨periodType, hPeriodType, rfl⟩ := exists_of_prefix_toList h11
  obtain ⟨period, hPeriod, rfl⟩ := exists_of_prefix_scalarRecords h12
  obtain ⟨comments, hComments, rfl⟩ := exists_of_prefix_packedRecords h13
  obtain ⟨defaultSampleType, hDefaultSampleType, rfl⟩ := exists_of_prefix_scalarRecords h14
  exact ⟨⟨sampleTypes, samples, locations, stringTable, dropFrames, keepFrames, timeNanos,
      durationNanos, periodType, period, comments, defaultSampleType⟩,
    ⟨hSampleTypes, hSamples, hLocations, hStringTable, hDropFrames, hKeepFrames, hTimeNanos,
      hDurationNanos, hPeriodType, hPeriod, hComments, hDefaultSampleType⟩, rfl⟩

/-- Whole records at the front of a list of records are the first of them: a record ends where the
reader says. -/
theorem exists_prefix_of_records {fields : List Field} {first rest : List UInt8}
    {records : List (List UInt8)} (hFirst : Records groupLimit fields first)
    (hRecords : ∀ record ∈ records, ∃ field, Record groupLimit field record)
    (hAll : records.flatten = first ++ rest) :
    ∃ kept, kept <+: records ∧ kept.flatten = first := by
  induction hFirst generalizing records with
  | nil => exact ⟨[], List.nil_prefix, rfl⟩
  | @cons field fields front others record _ ih =>
    have hRead := record.readField (others ++ rest)
    rw [← List.append_assoc, ← hAll] at hRead
    cases records with
    | nil => exact absurd (length_readField hRead) (Nat.not_lt_zero _)
    | cons head tail =>
      obtain ⟨⟨found, hFound⟩, hTail⟩ := List.forall_mem_cons.1 hRecords
      have hHead := hFound.readField tail.flatten
      rw [List.flatten_cons] at hRead hAll
      rw [hRead] at hHead
      have hRest : others ++ rest = tail.flatten := (Prod.mk.inj (Except.ok.inj hHead)).2
      obtain ⟨kept, hKept, rfl⟩ := ih hTail hRest.symm
      rw [List.append_assoc, hRest] at hAll
      exact ⟨head :: kept, List.cons_prefix_cons.2 ⟨rfl, hKept⟩,
        by rw [List.flatten_cons, List.append_cancel_right hAll]⟩

/-! ## Decoding the first bytes -/

namespace Profile

theorem PartOf.measurable {part profile : Profile} (partOf : part.PartOf profile)
    (hMeasurable : profile.Measurable) : part.Measurable where
  samples := fun sample hMem => hMeasurable.samples sample (partOf.samples.subset hMem)
  texts := fun text hMem => hMeasurable.texts text (partOf.stringTable.subset hMem)
  comments := by
    obtain ⟨more, hComments⟩ := partOf.comments
    have hLength := hMeasurable.comments
    rw [← hComments, List.map_append, List.flatMap_append, List.length_append] at hLength
    omega

theorem whole_of_decode {bytes : List UInt8} {profile : Profile}
    (hDecode : decode bytes = .ok profile) : Whole bytes := by
  cases hRead : readFields groupLimit bytes with
  | error e =>
    rw [decode, hRead] at hDecode
    cases hDecode
  | ok fields => exact ⟨fields, (readFields_eq_ok_iff (by decide)).1 hRead⟩

theorem cutOff_of_measurable {profile : Profile} (hMeasurable : profile.Measurable)
    {bytes : List UInt8} (hPrefix : bytes <+: profile.encode) : profile.CutOff bytes where
  of_between := by
    rintro ⟨rest, hAll, ⟨fields, hFirst⟩, -⟩
    rw [← profile.flatten_sections] at hAll
    obtain ⟨kept, hKept, rfl⟩ :=
      exists_prefix_of_records hFirst (fun _ hMem => profile.exists_record hMeasurable hMem) hAll
    obtain ⟨part, hPart, rfl⟩ := profile.exists_part hKept
    refine ⟨part, ?_, hPart⟩
    rw [part.flatten_sections, decode_encode_of_measurable (hPart.measurable hMeasurable)]
  of_inside := by
    intro hInside
    cases hDecode : decode bytes with
    | error e => exact ⟨e, rfl⟩
    | ok part =>
      obtain ⟨rest, hAll⟩ := hPrefix
      obtain ⟨fields, hFirst⟩ := whole_of_decode hDecode
      obtain ⟨others, hOthers⟩ := whole_of_decode (decode_encode_of_measurable hMeasurable)
      rw [← hAll] at hOthers
      exact absurd ⟨rest, hAll.symm, ⟨fields, hFirst⟩, hFirst.of_append (by decide) hOthers⟩ hInside

end Profile

end SiteProfiler.Pprof

namespace SiteProfiler

open Pprof

theorem taken_deliverProfile (profile : Profile) (limit : Nat) (whenFull : WhenFull) :
    (deliverProfile profile (.limited limit whenFull)).2.taken.toList =
      profile.encode.take limit := by
  have hRoom : (Sink.limited limit whenFull).room profile.encode.length =
      min profile.encode.length limit := rfl
  simp only [deliverProfile, Sink.write, hRoom]
  split <;> simp [Sink.limited, List.take_eq_take_iff, Nat.min_comm]

theorem MemSnapshot.measurable_profile (snapshot : MemSnapshot) : snapshot.profile.Measurable := by
  have hTable : (textTable [("alloc_objects", "count"), ("alloc_space", "bytes"),
      ("inuse_objects", "count"), ("inuse_space", "bytes")] "inuse_space").length < 2 ^ 63 := by
    decide
  rw [MemSnapshot.profile]
  refine measurable_build hTable (by decide) fun entry hEntry => ?_
  obtain ⟨record, -, rfl⟩ := List.mem_map.1 hEntry
  exact ⟨⟨record.field, rfl⟩, Nat.le_refl 4⟩

theorem BlockSnapshot.measurable_profile (snapshot : BlockSnapshot) :
    snapshot.profile.Measurable := by
  have hTable : (textTable [("contentions", "count"), ("delay", "cycles")] "delay").length <
      2 ^ 63 := by
    decide
  rw [BlockSnapshot.profile]
  refine measurable_build hTable (by decide) fun entry hEntry => ?_
  obtain ⟨record, -, rfl⟩ := List.mem_map.1 hEntry
  exact ⟨⟨record.field, rfl⟩, Nat.le_add_right 2 2⟩

/-- The first bytes of an encoded profile decode exactly if they end between records, and then to a
part of the profile.  That is so for what a failing sink has taken of an exported snapshot. -/
theorem cut_off_never_misleads :
    (∀ profile : Profile, profile.encode.length < 2 ^ 64 →
      ∀ bytes, bytes <+: profile.encode → profile.CutOff bytes) ∧
    (∀ (snapshot : MemSnapshot) (limit : Nat) (whenFull : WhenFull),
      let taken := (snapshot.exportPprof (.limited limit whenFull)).2.taken.toList
      taken = snapshot.profile.encode.take limit ∧ snapshot.profile.CutOff taken) ∧
    ∀ (snapshot : BlockSnapshot) (limit : Nat) (whenFull : WhenFull),
      let taken := (snapshot.exportPprof (.limited limit whenFull)).2.taken.toList
      taken = snapshot.profile.encode.take limit ∧ snapshot.profile.CutOff taken := by
  refine ⟨fun profile hLength bytes hPrefix =>
    Profile.cutOff_of_measurable (Profile.measurable_of_length hLength) hPrefix, ?_, ?_⟩
  · intro snapshot limit whenFull
    rw [MemSnapshot.exportPprof, taken_deliverProfile]
    exact ⟨rfl, Profile.cutOff_of_measurable snapshot.measurable_profile (List.take_prefix limit _)⟩
  · intro snapshot limit whenFull
    rw [BlockSnapshot.exportPprof, taken_deliverProfile]
    exact ⟨rfl, Profile.cutOff_of_measurable snapshot.measurable_profile (List.take_prefix limit _)⟩

/-- The first seven bytes of a profile, and the 30 bytes that a sink took of an empty snapshot. -/
theorem cut_off_never_misleads_extreme :
    Profile.extreme.encode.length < 2 ^ 64 ∧
    (Profile.extreme.encode.take 7 <+: Profile.extreme.encode ∧
      Profile.extreme.CutOff (Profile.extreme.encode.take 7)) ∧
    let taken := ((MemSnapshot.mk [] 3).exportPprof (.limited 30 .stalls)).2.taken.toList
    taken = (MemSnapshot.mk [] 3).profile.encode.take 30 ∧
      (MemSnapshot.mk [] 3).profile.CutOff taken := by
  have hLength : Profile.extreme.encode.length < 2 ^ 64 := by decide +kernel
  have hPrefix := List.take_prefix 7 Profile.extreme.encode
  exact ⟨hLength, ⟨hPrefix, cut_off_never_misleads.1 Profile.extreme hLength _ hPrefix⟩,
    cut_off_never_misleads.2.1 ⟨[], 3⟩ 30 .stalls⟩

end SiteProfiler
