import Mathlib.Data.List.Basic
import SiteProfiler.Proofs.Pprof.Records
import SiteProfiler.Proofs.Pprof.RoundTrip

/-!
# Spellings of one profile

Bytes can differ and still hold the same declared fields: they may have records of other fields in
between, in the profile or in a message inside it, and a list of numbers may be split up in any way
over packed records and records of single numbers.  Decoding does not tell such bytes apart.  The
encodings of two profiles, one after the other, decode to the second written over the first.
-/

namespace SiteProfiler.Pprof

/-! ## Bytes with the same fields -/

/-- What a message declares: the numbers of its fields, and which of them are lists of numbers. -/
structure Layout where
  declared : List Nat
  lists : List Nat

def ValueType.layout : Layout := ⟨[1, 2], []⟩

def Sample.layout : Layout := ⟨[1, 2], [1, 2]⟩

def Location.layout : Layout := ⟨[1, 2, 3, 5], []⟩

def Profile.layout : Layout := ⟨[1, 2, 4, 6, 7, 8, 9, 10, 11, 12, 13, 14], [13]⟩

/-- The layouts of the messages inside a profile, by the numbers of their fields. -/
def Profile.nestedLayout? : Nat → Option Layout
  | 1 | 11 => some ValueType.layout
  | 2 => some Sample.layout
  | 4 => some Location.layout
  | _ => none

/-- The bytes are records of one field that hold these words in order: packed lists, which may be
empty, and single words, in any mixture. -/
inductive Mixture (number : Nat) : List UInt64 → List UInt8 → Prop
  | nil : Mixture number [] []
  | single {word : UInt64} {words : List UInt64} {front body rest : List UInt8}
      (hKey : KeyOf number .varint front) (hSpells : Spells 9 body word.toNat)
      (hRest : Mixture number words rest) : Mixture number (word :: words) (front ++ body ++ rest)
  | packed {chunk words : List UInt64} {front count content rest : List UInt8}
      (hKey : KeyOf number .delimited front) (hCount : Spells 9 count content.length)
      (hContent : SpellsAll content chunk) (hRest : Mixture number words rest) :
      Mixture number (chunk ++ words) (front ++ (count ++ content) ++ rest)

/-- The second bytes have one more record of a field that is not declared, between two records of
the first; or they have the words of a list in another mixture. -/
inductive Respelled (limit : Nat) (layout : Layout) : List UInt8 → List UInt8 → Prop
  | undeclared {fields : List Field} {field : Field} {before unknown : List UInt8}
      (hBefore : Records limit fields before) (hUnknown : Record limit field unknown)
      (hNumber : field.number ∉ layout.declared) (after : List UInt8) :
      Respelled limit layout (before ++ after) (before ++ unknown ++ after)
  | remixed {fields : List Field} {number : Nat} {words : List UInt64}
      {before mixture other : List UInt8} (hBefore : Records limit fields before)
      (hNumber : number ∈ layout.lists) (hMixture : Mixture number words mixture)
      (hOther : Mixture number words other) (after : List UInt8) :
      Respelled limit layout (before ++ mixture ++ after) (before ++ other ++ after)

/-- The second bytes respell the first, outside of the messages in the profile or inside one of
them, whose length is then adjusted. -/
inductive Profile.Respelled : List UInt8 → List UInt8 → Prop
  | outside {bytes other : List UInt8}
      (hRespelled : Pprof.Respelled groupLimit Profile.layout bytes other) :
      Profile.Respelled bytes other
  | inside {fields : List Field} {number : Nat} {layout : Layout}
      {before front count content otherCount otherContent : List UInt8}
      (hBefore : Records groupLimit fields before)
      (hLayout : Profile.nestedLayout? number = some layout)
      (hKey : KeyOf number .delimited front)
      (hRespelled : Pprof.Respelled nestedGroupLimit layout content otherContent)
      (hCount : Spells 9 count content.length)
      (hOtherCount : Spells 9 otherCount otherContent.length) (after : List UInt8) :
      Profile.Respelled (before ++ (front ++ (count ++ content)) ++ after)
        (before ++ (front ++ (otherCount ++ otherContent)) ++ after)

/-! ## Decoding does not tell them apart -/

section Decoding

variable {M : Type} {limit : Nat} {add : M → Field → Except WireError M}

/-- Records in the middle of a message matter only through what their fields add. -/
theorem foldFields_congr {fields middle others : List Field} {before bytes otherBytes : List UInt8}
    (hBefore : Records limit fields before) (hBytes : Records limit middle bytes)
    (hOthers : Records limit others otherBytes)
    (hSame : ∀ message, middle.foldlM add message = others.foldlM add message) (message : M)
    (after : List UInt8) :
    foldFields limit add message (before ++ bytes ++ after) =
      foldFields limit add message (before ++ otherBytes ++ after) := by
  rw [foldFields, foldFields, List.append_assoc, List.append_assoc, hBefore.readFields,
    hBefore.readFields, hBytes.readFields, hOthers.readFields]
  cases readFields limit after with
  | error e => rfl
  | ok rest =>
    show (fields ++ (middle ++ rest)).foldlM add message =
      (fields ++ (others ++ rest)).foldlM add message
    simp only [List.foldlM_append, hSame]

/-- The field of a number appends words to a list of the message. -/
structure Appends (add : M → Field → Except WireError M) (number : Nat)
    (put : M → List UInt64 → M) : Prop where
  put_nil : ∀ message, put message [] = message
  put_append : ∀ message words more, put (put message words) more = put message (words ++ more)
  add_eq : ∀ message payload words, payload.words? = .ok words →
    add message ⟨number, payload⟩ = .ok (put message words)

/-- A mixture adds its words, however they are split up. -/
theorem Mixture.exists_fields {number : Nat} {put : M → List UInt64 → M}
    (appends : Appends add number put) {words : List UInt64} {bytes : List UInt8}
    (mixture : Mixture number words bytes) (room : Nat) :
    ∃ fields, Records (room + 1) fields bytes ∧
      ∀ message, fields.foldlM add message = .ok (put message words) := by
  induction mixture with
  | nil =>
    refine ⟨[], .nil, fun message => ?_⟩
    rw [appends.put_nil]
    rfl
  | @single word words front body rest hKey hSpells _ ih =>
    obtain ⟨fields, records, hFold⟩ := ih
    refine ⟨⟨number, .word word⟩ :: fields, .cons (.plain hKey (.word hSpells)) records,
      fun message => ?_⟩
    rw [List.foldlM_cons, appends.add_eq message (.word word) [word] rfl]
    exact (hFold _).trans (by rw [appends.put_append]; rfl)
  | @packed chunk words front count content rest hKey hCount hContent _ ih =>
    obtain ⟨fields, records, hFold⟩ := ih
    refine ⟨⟨number, .delimited content⟩ :: fields, .cons (.plain hKey (.delimited hCount)) records,
      fun message => ?_⟩
    rw [List.foldlM_cons,
      appends.add_eq message (.delimited content) chunk (readPacked_of_spellsAll hContent)]
    exact (hFold _).trans (by rw [appends.put_append])

/-- A message ignores fields that its layout does not declare, and appends to its lists. -/
structure Layout.Describes (layout : Layout) (add : M → Field → Except WireError M) : Prop where
  ignores : ∀ message field, field.number ∉ layout.declared → add message field = .ok message
  appends : ∀ number ∈ layout.lists, ∃ put, Appends add number put

theorem foldFields_respelled {layout : Layout} (describes : layout.Describes add)
    {bytes other : List UInt8} (respelled : Respelled (limit + 1) layout bytes other)
    (message : M) :
    foldFields (limit + 1) add message other = foldFields (limit + 1) add message bytes := by
  cases respelled with
  | @undeclared fields field before unknown hBefore hUnknown hNumber after =>
    have hIgnored : ∀ message, [field].foldlM add message = [].foldlM add message := by
      intro message
      rw [List.foldlM_cons, describes.ignores message field hNumber]
      rfl
    have hSame := foldFields_congr hBefore hUnknown.single .nil hIgnored message after
    rwa [List.append_nil] at hSame
  | @remixed fields number words before mixture other hBefore hNumber hMixture hOther after =>
    obtain ⟨put, appends⟩ := describes.appends number hNumber
    obtain ⟨middle, hMiddle, hFold⟩ := hMixture.exists_fields appends limit
    obtain ⟨others, hOthers, hOtherFold⟩ := hOther.exists_fields appends limit
    exact foldFields_congr hBefore hOthers hMiddle
      (fun message => (hOtherFold message).trans (hFold message).symm) message after

end Decoding

/-! ## The messages of a profile -/

theorem ValueType.layout_describes : layout.Describes add where
  ignores := by
    intro message field hNumber
    unfold add
    split <;> simp_all [layout, pure, Except.pure]
  appends := List.forall_mem_nil _

theorem Sample.layout_describes : layout.Describes add where
  ignores := by
    intro message field hNumber
    unfold add
    split <;> simp_all [layout, pure, Except.pure]
  appends := by
    intro number hNumber
    rcases List.mem_pair.1 hNumber with rfl | rfl
    · exact ⟨fun message words => { message with locationIds := message.locationIds ++ words },
        fun message => by simp, fun message words more => by simp,
        fun message payload words hWords => add_ids hWords⟩
    · exact ⟨fun message words =>
          { message with values := message.values ++ words.map UInt64.toInt64 },
        fun message => by simp, fun message words more => by simp,
        fun message payload words hWords => add_values hWords⟩

theorem Location.layout_describes : layout.Describes add where
  ignores := by
    intro message field hNumber
    unfold add
    split <;> simp_all [layout, pure, Except.pure]
  appends := List.forall_mem_nil _

namespace Profile

theorem layout_describes : layout.Describes add where
  ignores := by
    intro message field hNumber
    unfold add
    split <;> simp_all [layout, pure, Except.pure]
  appends := by
    intro number hNumber
    obtain rfl := List.mem_singleton.1 hNumber
    exact ⟨fun message words =>
        { message with comments := message.comments ++ words.map UInt64.toInt64 },
      fun message => by simp, fun message words more => by simp,
      fun message payload words hWords => add_comments hWords⟩

/-- A message inside a profile is added alike in all its spellings. -/
theorem add_respelled {number : Nat} {inner : Layout} {content other : List UInt8}
    (hLayout : nestedLayout? number = some inner)
    (respelled : Pprof.Respelled nestedGroupLimit inner content other) (message : Profile) :
    message.add ⟨number, .delimited other⟩ = message.add ⟨number, .delimited content⟩ := by
  unfold nestedLayout? at hLayout
  split at hLayout
  next =>
    obtain rfl := Option.some.inj hLayout
    have hSame : ValueType.blank.merge other = ValueType.blank.merge content :=
      foldFields_respelled ValueType.layout_describes respelled .blank
    simp only [add, Payload.content?, bind, Except.bind, hSame]
  next =>
    obtain rfl := Option.some.inj hLayout
    have hSame : (message.periodType.getD .blank).merge other =
        (message.periodType.getD .blank).merge content :=
      foldFields_respelled ValueType.layout_describes respelled _
    simp only [add, Payload.content?, bind, Except.bind, hSame]
  next =>
    obtain rfl := Option.some.inj hLayout
    have hSame : Sample.decode other = Sample.decode content :=
      foldFields_respelled Sample.layout_describes respelled .blank
    simp only [add, Payload.content?, bind, Except.bind, hSame]
  next =>
    obtain rfl := Option.some.inj hLayout
    have hSame : Location.decode other = Location.decode content :=
      foldFields_respelled Location.layout_describes respelled .blank
    simp only [add, Payload.content?, bind, Except.bind, hSame]
  next => cases hLayout

theorem decode_respelled {bytes other : List UInt8} (respelled : Respelled bytes other) :
    decode other = decode bytes := by
  show foldFields groupLimit add blank other = foldFields groupLimit add blank bytes
  cases respelled with
  | outside hRespelled => exact foldFields_respelled layout_describes hRespelled blank
  | inside hBefore hLayout hKey hRespelled hCount hOtherCount after =>
    refine foldFields_congr hBefore (Record.plain hKey (.delimited hOtherCount)).single
      (Record.plain hKey (.delimited hCount)).single (fun message => ?_) blank after
    rw [List.foldlM_cons, List.foldlM_cons, add_respelled hLayout hRespelled]

/-- Decoding depends only on the declared fields: bytes and their respellings decode alike, and
the encodings of two profiles in a row decode to the second written over the first. -/
theorem decode_declared_fields :
    (∀ bytes other, Respelled bytes other → decode other = decode bytes) ∧
    ∀ first second : Profile, first.encode.length < 2 ^ 64 → second.encode.length < 2 ^ 64 →
      decode (first.encode ++ second.encode) = .ok (first.overlay second) := by
  refine ⟨fun _ _ => decode_respelled, fun first second hFirst hSecond => ?_⟩
  show foldFields groupLimit add blank (first.encode ++ second.encode) = .ok _
  rw [foldFields_encode blank (measurable_of_length hFirst), blank_overlay,
    ← List.append_nil second.encode, foldFields_encode first (measurable_of_length hSecond),
    foldFields_nil]

/-- A sample of two locations; the same with the second location in a record of its own; and the
sample followed by a group that no profile declares, with a fixed field in it. -/
theorem decode_declared_fields_met :
    (Respelled [0x12, 4, 0x0a, 2, 1, 2] [0x12, 5, 0x0a, 1, 1, 0x08, 2] ∧
      decode [0x12, 5, 0x0a, 1, 1, 0x08, 2] = decode [0x12, 4, 0x0a, 2, 1, 2]) ∧
    (Respelled [0x12, 4, 0x0a, 2, 1, 2] [0x12, 4, 0x0a, 2, 1, 2, 0x7b, 0x0d, 1, 2, 3, 4, 0x7c] ∧
      decode [0x12, 4, 0x0a, 2, 1, 2, 0x7b, 0x0d, 1, 2, 3, 4, 0x7c] =
        decode [0x12, 4, 0x0a, 2, 1, 2]) ∧
    extreme.encode.length < 2 ^ 64 ∧
      decode (extreme.encode ++ extreme.encode) = .ok (extreme.overlay extreme) := by
  have hSample : KeyOf 2 .delimited [0x12] := ⟨⟨by decide, by decide⟩, .last (by decide)⟩
  have hIds : KeyOf 1 .delimited [0x0a] := ⟨⟨by decide, by decide⟩, .last (by decide)⟩
  have hId : KeyOf 1 .varint [0x08] := ⟨⟨by decide, by decide⟩, .last (by decide)⟩
  have hOne : Spells 9 [1] (1 : UInt64).toNat := .last (by decide)
  have hTwo : Spells 9 [2] (2 : UInt64).toNat := .last (by decide)
  have hBoth : Spells 9 [2] ([1, 2] : List UInt8).length := .last (by decide)
  have hFirst : Spells 9 [1] ([1] : List UInt8).length := .last (by decide)
  have hPacked := Mixture.packed hIds hBoth (.cons hOne (.cons hTwo .nil)) .nil
  have hSplit := Mixture.packed hIds hFirst (.cons hOne .nil) (.single hId hTwo .nil)
  have hInside : Pprof.Respelled nestedGroupLimit Sample.layout [0x0a, 2, 1, 2]
      [0x0a, 1, 1, 0x08, 2] := .remixed .nil (by decide) hPacked hSplit []
  have hRemixed : Respelled [0x12, 4, 0x0a, 2, 1, 2] [0x12, 5, 0x0a, 1, 1, 0x08, 2] :=
    .inside .nil rfl hSample hInside (.last (by decide) : Spells 9 [4] 4)
      (.last (by decide) : Spells 9 [5] 5) []
  have hStart : KeyOf 15 .groupStart [0x7b] := ⟨⟨by decide, by decide⟩, .last (by decide)⟩
  have hEnd : KeyOf 15 .groupEnd [0x7c] := ⟨⟨by decide, by decide⟩, .last (by decide)⟩
  have hFixed : KeyOf 1 .fixed32 [0x0d] := ⟨⟨by decide, by decide⟩, .last (by decide)⟩
  have hRecord : Record 99 ⟨1, .passedOver .fixed32⟩ [0x0d, 1, 2, 3, 4] :=
    .plain hFixed (.fixed32 (rfl : [1, 2, 3, 4].length = 4))
  have hRecords : ∀ record ∈ [(Field.mk 1 (.passedOver .fixed32), [0x0d, 1, 2, 3, 4])],
      Record 99 record.1 record.2 := List.forall_mem_singleton.2 hRecord
  have hGroup : Record groupLimit ⟨15, .passedOver .groupStart⟩ [0x7b, 0x0d, 1, 2, 3, 4, 0x7c] :=
    .group hStart hRecords hEnd
  have hCount : Spells 9 [4] ([0x0a, 2, 1, 2] : List UInt8).length := .last (by decide)
  have hBefore : Record groupLimit _ _ := .plain hSample (.delimited hCount)
  have hInserted : Respelled [0x12, 4, 0x0a, 2, 1, 2]
      [0x12, 4, 0x0a, 2, 1, 2, 0x7b, 0x0d, 1, 2, 3, 4, 0x7c] :=
    .outside (.undeclared hBefore.single hGroup (by decide) [])
  have hLength : extreme.encode.length < 2 ^ 64 := by decide +kernel
  exact ⟨⟨hRemixed, decode_declared_fields.1 _ _ hRemixed⟩,
    ⟨hInserted, decode_declared_fields.1 _ _ hInserted⟩, hLength,
    decode_declared_fields.2 extreme extreme hLength hLength⟩

end Profile

end SiteProfiler.Pprof
