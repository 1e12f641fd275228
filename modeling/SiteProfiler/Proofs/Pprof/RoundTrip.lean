import SiteProfiler.Pprof.Message
import SiteProfiler.Proofs.Pprof.Fields

/-!
# Decoding what was encoded

Adding the fields of an encoded profile to a profile writes the one over the other: lists are
appended, and numbers are replaced unless they are left out as zero.  Encoding a profile and
decoding the bytes therefore gives the profile back.  The length of a text and of a nested message
is written as a 64-bit word, so these must be shorter than 2^64 bytes; nothing else is asked of a
profile.
-/

namespace SiteProfiler.Pprof

/-! ## One message over another -/

/-- A number with another one written over it; zero is not written. -/
def overwritten (below above : Int64) : Int64 := if above = 0 then below else above

/-- A value type with the numbers of another one written over its own. -/
def ValueType.overlay (below above : ValueType) : ValueType where
  type := overwritten below.type above.type
  unit := overwritten below.unit above.unit

/-- A profile with another one written over it: the lists of both, the numbers of the second where
they are not zero, and the period types one over the other. -/
def Profile.overlay (below above : Profile) : Profile where
  sampleTypes := below.sampleTypes ++ above.sampleTypes
  samples := below.samples ++ above.samples
  locations := below.locations ++ above.locations
  stringTable := below.stringTable ++ above.stringTable
  dropFrames := overwritten below.dropFrames above.dropFrames
  keepFrames := overwritten below.keepFrames above.keepFrames
  timeNanos := overwritten below.timeNanos above.timeNanos
  durationNanos := overwritten below.durationNanos above.durationNanos
  periodType :=
    match below.periodType, above.periodType with
    | some first, some second => some (first.overlay second)
    | first, none => first
    | none, second => second
  period := overwritten below.period above.period
  comments := below.comments ++ above.comments
  defaultSampleType := overwritten below.defaultSampleType above.defaultSampleType

theorem overwritten_zero_left (value : Int64) : overwritten 0 value = value := by
  unfold overwritten
  split
  next hZero => exact hZero.symm
  next => rfl

theorem ValueType.blank_overlay (message : ValueType) : blank.overlay message = message := by
  simp only [overlay, blank, overwritten_zero_left]

theorem Profile.blank_overlay (profile : Profile) : blank.overlay profile = profile := by
  have hPeriod : (blank.overlay profile).periodType = profile.periodType := by
    cases hType : profile.periodType <;> simp only [overlay, blank, hType]
  cases profile
  simp only [overlay, blank, overwritten_zero_left, List.nil_append] at hPeriod ⊢
  rw [hPeriod]

/-- A number of a message is written over the one that is there. -/
theorem foldFields_number {M : Type} {limit : Nat} {add : M → Field → Except WireError M}
    {message : M} {number : Nat} (hNumber : IsFieldNumber number) (put : M → Int64 → M)
    (value : M → Int64)
    (hAdd : ∀ word, add message ⟨number, .word word⟩ = .ok (put message word.toInt64))
    (hSame : put message (value message) = message) (written : Int64) (rest : List UInt8) :
    foldFields limit add message (scalar number written.toUInt64 ++ rest) =
      foldFields limit add (put message (overwritten (value message) written)) rest := by
  rw [foldFields_scalar hNumber
    (fun message word => put message (overwritten (value message) word.toInt64)) ?_ hSame,
    written.toInt64_toUInt64]
  intro word hWord
  have hValue : word.toInt64 ≠ 0 := by
    intro hZero
    exact hWord (by rw [← word.toUInt64_toInt64, hZero]; rfl)
  rw [hAdd, overwritten, if_neg hValue]

theorem map_toInt64 (values : List Int64) :
    (values.map Int64.toUInt64).map UInt64.toInt64 = values := by
  rw [List.map_map]
  exact (List.map_congr_left fun value _ => value.toInt64_toUInt64).trans (List.map_id values)

theorem length_key_le (number : Nat) (wireType : WireType) : (key number wireType).length ≤ 10 :=
  length_groups_le 9 _

theorem length_scalar_le (number : Nat) (word : UInt64) : (scalar number word).length ≤ 20 := by
  have hKey := length_key_le number .varint
  have hVarint := length_varint_le word
  unfold scalar
  split
  · exact Nat.zero_le 20
  · rw [List.length_append]
    omega

/-! ## Value types and locations -/

theorem ValueType.length_encode_le (message : ValueType) : message.encode.length ≤ 40 := by
  have hType := length_scalar_le 1 message.type.toUInt64
  have hUnit := length_scalar_le 2 message.unit.toUInt64
  rw [encode, List.length_append]
  omega

theorem ValueType.merge_encode (message other : ValueType) :
    message.merge other.encode = .ok (message.overlay other) := by
  show foldFields nestedGroupLimit add message other.encode = .ok (message.overlay other)
  rw [encode, foldFields_number ⟨by decide, by decide⟩
      (fun message value => { message with type := value }) type (fun _ => rfl) rfl,
    ← List.append_nil (scalar 2 _), foldFields_number ⟨by decide, by decide⟩
      (fun message value => { message with unit := value }) unit (fun _ => rfl) rfl,
    foldFields_nil]
  rfl

theorem Location.length_encode_le (message : Location) : message.encode.length ≤ 80 := by
  have hId := length_scalar_le 1 message.id
  have hMapping := length_scalar_le 2 message.mappingId
  have hAddress := length_scalar_le 3 message.address
  have hFolded := length_scalar_le 5 message.isFolded.toUInt64
  simp only [encode, List.length_append]
  omega

theorem Location.decode_encode (message : Location) : decode message.encode = .ok message := by
  have hFolded : decide (message.isFolded.toUInt64 ≠ 0) = message.isFolded := by
    cases message.isFolded <;> decide
  show foldFields nestedGroupLimit add blank message.encode = .ok message
  simp only [encode, List.append_assoc]
  rw [foldFields_scalar ⟨by decide, by decide⟩
      (fun message word => { message with id := word }) (fun _ _ => rfl) rfl,
    foldFields_scalar ⟨by decide, by decide⟩
      (fun message word => { message with mappingId := word }) (fun _ _ => rfl) rfl,
    foldFields_scalar ⟨by decide, by decide⟩
      (fun message word => { message with address := word }) (fun _ _ => rfl) rfl,
    ← List.append_nil (scalar 5 _), foldFields_scalar ⟨by decide, by decide⟩
      (fun message word => { message with isFolded := word ≠ 0 }) (fun _ _ => rfl) rfl,
    foldFields_nil, hFolded]

/-! ## Samples -/

theorem length_le_packed (number : Nat) (words : List UInt64) :
    (words.flatMap varint).length ≤ (packed number words).length := by
  unfold packed
  split
  · next hWords => rw [hWords]; exact Nat.le_refl 0
  · simp only [delimited, List.length_append]
    omega

theorem length_le_flatMap_delimited {α : Type} (number : Nat) (content : α → List UInt8)
    {items : List α} {item : α} (hItem : item ∈ items) :
    (content item).length ≤
      (items.flatMap fun item => delimited number (content item)).length := by
  obtain ⟨before, after, rfl⟩ := List.append_of_mem hItem
  simp only [List.flatMap_append, List.flatMap_cons, List.length_append, delimited]
  omega

theorem length_packed_le (number : Nat) (words : List UInt64) :
    (packed number words).length ≤ 20 + 10 * words.length := by
  have hKey := length_key_le number .delimited
  have hCount := length_groups_le 9 (words.flatMap varint).length
  have hWords := length_flatMap_varint_le words
  unfold packed
  split
  · exact Nat.zero_le _
  · simp only [delimited, List.length_append]
    omega

theorem Sample.add_ids {message : Sample} {payload : Payload} {words : List UInt64}
    (hWords : payload.words? = .ok words) :
    message.add ⟨1, payload⟩ =
      .ok { message with locationIds := message.locationIds ++ words } := by
  simp only [add, hWords]
  rfl

theorem Sample.add_values {message : Sample} {payload : Payload} {words : List UInt64}
    (hWords : payload.words? = .ok words) :
    message.add ⟨2, payload⟩ =
      .ok { message with values := message.values ++ words.map UInt64.toInt64 } := by
  simp only [add, hWords]
  rfl

theorem Sample.length_encode_le (message : Sample) :
    message.encode.length ≤
      40 + 10 * (message.locationIds.length + message.values.length) := by
  have hIds := length_packed_le 1 message.locationIds
  have hValues := length_packed_le 2 (message.values.map Int64.toUInt64)
  rw [List.length_map] at hValues
  rw [encode, List.length_append]
  omega

theorem Sample.decode_encode {message : Sample} (hLength : message.encode.length < 2 ^ 64) :
    decode message.encode = .ok message := by
  have hIds := length_le_packed 1 message.locationIds
  have hValues := length_le_packed 2 (message.values.map Int64.toUInt64)
  rw [encode, List.length_append] at hLength
  show foldFields nestedGroupLimit add blank message.encode = .ok message
  rw [encode, foldFields_packed ⟨by decide, by decide⟩ (by omega)
      (fun _ hWords => add_ids hWords) (fun hNil => by rw [hNil]; rfl),
    ← List.append_nil (packed 2 _), foldFields_packed ⟨by decide, by decide⟩ (by omega)
      (fun _ hWords => add_values hWords) (fun hNil => by rw [hNil]; rfl),
    foldFields_nil, map_toInt64]
  rfl

/-! ## Profiles -/

theorem decodeText_textBytes (text : String) : decodeText (textBytes text) = .ok text := by
  have hBytes : (textBytes text).toByteArray = text.toByteArray := by
    apply ByteArray.ext
    rw [List.data_toByteArray, textBytes, Array.toArray_toList]
  rw [decodeText, hBytes, String.fromUTF8?, dif_pos text.isValidUTF8]
  rfl

/-- The texts and nested messages of a profile, of which some may be long, are short enough for
their lengths to be written. -/
structure Profile.Measurable (profile : Profile) : Prop where
  samples : ∀ sample ∈ profile.samples, sample.encode.length < 2 ^ 64
  texts : ∀ text ∈ profile.stringTable, (textBytes text).length < 2 ^ 64
  comments : ((profile.comments.map Int64.toUInt64).flatMap varint).length < 2 ^ 64

namespace Profile

theorem add_sampleType (message : Profile) (item : ValueType) :
    message.add ⟨1, .delimited item.encode⟩ =
      .ok { message with sampleTypes := message.sampleTypes ++ [item] } := by
  simp only [add, Payload.content?, bind, Except.bind, ValueType.blank.merge_encode item,
    item.blank_overlay]
  rfl

theorem add_sample (message : Profile) {item : Sample} (hLength : item.encode.length < 2 ^ 64) :
    message.add ⟨2, .delimited item.encode⟩ =
      .ok { message with samples := message.samples ++ [item] } := by
  simp only [add, Payload.content?, bind, Except.bind, Sample.decode_encode hLength]
  rfl

theorem add_location (message : Profile) (item : Location) :
    message.add ⟨4, .delimited item.encode⟩ =
      .ok { message with locations := message.locations ++ [item] } := by
  simp only [add, Payload.content?, bind, Except.bind, item.decode_encode]
  rfl

theorem add_text (message : Profile) (text : String) :
    message.add ⟨6, .delimited (textBytes text)⟩ =
      .ok { message with stringTable := message.stringTable ++ [text] } := by
  simp only [add, Payload.content?, bind, Except.bind, decodeText_textBytes]
  rfl

theorem add_periodType (message : Profile) (item : ValueType) :
    message.add ⟨11, .delimited item.encode⟩ =
      .ok { message with
        periodType := some ((message.periodType.getD .blank).overlay item) } := by
  simp only [add, Payload.content?, bind, Except.bind, ValueType.merge_encode]
  rfl

theorem add_comments {message : Profile} {payload : Payload} {words : List UInt64}
    (hWords : payload.words? = .ok words) :
    message.add ⟨13, payload⟩ =
      .ok { message with comments := message.comments ++ words.map UInt64.toInt64 } := by
  simp only [add, hWords]
  rfl

theorem foldFields_periodType (message : Profile) (type : Option ValueType)
    (rest : List UInt8) :
    foldFields groupLimit add message
        (type.toList.flatMap (fun item => delimited 11 item.encode) ++ rest) =
      foldFields groupLimit add
        { message with
          periodType :=
            match message.periodType, type with
            | some first, some second => some (first.overlay second)
            | first, none => first
            | none, second => second } rest := by
  cases type with
  | none =>
    rw [Option.toList_none, List.flatMap_nil, List.nil_append]
    cases message with
    | mk _ _ _ _ _ _ _ _ periodType => cases periodType <;> rfl
  | some item =>
    have hLength := item.length_encode_le
    rw [Option.toList_some, List.flatMap_singleton,
      foldFields_delimited ⟨by decide, by decide⟩ (by omega) (message.add_periodType item)]
    cases hPeriod : message.periodType with
    | none => rw [Option.getD_none, item.blank_overlay]
    | some first => rfl

/-- The fields come in the order of their numbers, so they are written over the message one by
one. -/
theorem foldFields_encode (message : Profile) {profile : Profile}
    (hMeasurable : profile.Measurable) (rest : List UInt8) :
    foldFields groupLimit add message (profile.encode ++ rest) =
      foldFields groupLimit add (message.overlay profile) rest := by
  have hTypes : ∀ item ∈ profile.sampleTypes, item.encode.length < 2 ^ 64 := fun item _ => by
    have hLength := item.length_encode_le
    omega
  have hLocations : ∀ item ∈ profile.locations, item.encode.length < 2 ^ 64 := fun item _ => by
    have hLength := item.length_encode_le
    omega
  simp only [encode, List.append_assoc]
  rw [foldFields_each ⟨by decide, by decide⟩
    (fun message items => { message with sampleTypes := message.sampleTypes ++ items })
    (fun _ => by rw [List.append_nil]) (fun _ _ _ => by simp) hTypes
    (fun message item _ => message.add_sampleType item)]
  rw [foldFields_each ⟨by decide, by decide⟩
    (fun message items => { message with samples := message.samples ++ items })
    (fun _ => by rw [List.append_nil]) (fun _ _ _ => by simp) hMeasurable.samples
    (fun message item hItem => message.add_sample (hMeasurable.samples item hItem))]
  dsimp only
  rw [foldFields_each ⟨by decide, by decide⟩
    (fun message items => { message with locations := message.locations ++ items })
    (fun _ => by rw [List.append_nil]) (fun _ _ _ => by simp) hLocations
    (fun message item _ => message.add_location item)]
  dsimp only
  rw [foldFields_each ⟨by decide, by decide⟩
    (fun message texts => { message with stringTable := message.stringTable ++ texts })
    (fun _ => by rw [List.append_nil]) (fun _ _ _ => by simp) hMeasurable.texts
    (fun message text _ => message.add_text text)]
  dsimp only
  rw [foldFields_number ⟨by decide, by decide⟩
    (fun message value => { message with dropFrames := value }) dropFrames (fun _ => rfl) rfl]
  dsimp only
  rw [foldFields_number ⟨by decide, by decide⟩
    (fun message value => { message with keepFrames := value }) keepFrames (fun _ => rfl) rfl]
  dsimp only
  rw [foldFields_number ⟨by decide, by decide⟩
    (fun message value => { message with timeNanos := value }) timeNanos (fun _ => rfl) rfl]
  dsimp only
  rw [foldFields_number ⟨by decide, by decide⟩
    (fun message value => { message with durationNanos := value }) durationNanos (fun _ => rfl)
    rfl]
  dsimp only
  rw [foldFields_periodType]
  dsimp only
  rw [foldFields_number ⟨by decide, by decide⟩
    (fun message value => { message with period := value }) period (fun _ => rfl) rfl]
  dsimp only
  rw [foldFields_packed ⟨by decide, by decide⟩ hMeasurable.comments
    (fun _ hWords => add_comments hWords)
    (fun hNil => by simp only [hNil, List.map_nil, List.append_nil])]
  dsimp only
  rw [foldFields_number ⟨by decide, by decide⟩
    (fun message value => { message with defaultSampleType := value }) defaultSampleType
    (fun _ => rfl) rfl]
  rw [map_toInt64]
  rfl

theorem decode_encode_of_measurable {profile : Profile} (hMeasurable : profile.Measurable) :
    decode profile.encode = .ok profile := by
  show foldFields groupLimit add blank profile.encode = .ok profile
  rw [← List.append_nil profile.encode, foldFields_encode blank hMeasurable, blank_overlay]
  rfl

/-- What is encoded in fewer than 2^64 bytes is measurable, whatever its parts. -/
theorem measurable_of_length {profile : Profile} (hLength : profile.encode.length < 2 ^ 64) :
    profile.Measurable := by
  simp only [encode, List.length_append] at hLength
  refine ⟨fun sample hSample => ?_, fun text hText => ?_, ?_⟩
  · have hPart := length_le_flatMap_delimited 2 Sample.encode hSample
    omega
  · have hPart := length_le_flatMap_delimited 6 textBytes hText
    omega
  · have hPart := length_le_packed 13 (profile.comments.map Int64.toUInt64)
    omega

/-- Every profile is decoded from its encoding, as long as the number of bytes is a 64-bit word,
which is what a length on the wire and the length of a buffer are. -/
theorem encode_round_trip (profile : Profile) (hLength : profile.encode.length < 2 ^ 64) :
    decode profile.encode = .ok profile :=
  decode_encode_of_measurable (measurable_of_length hLength)

/-- A profile at the ends of what its fields hold: negative and extreme numbers, empty lists and
texts, a sample without entries, and a period type that is there but zero. -/
def extreme : Profile where
  sampleTypes := [⟨Int64.minValue, Int64.maxValue⟩, .blank]
  samples := [.blank, ⟨[0, 0xffffffffffffffff], [Int64.minValue, -1, 0]⟩]
  locations := [⟨0xffffffffffffffff, 0, 0x8000000000000000, true⟩, .blank]
  stringTable := ["", "é😀", ""]
  dropFrames := Int64.minValue
  keepFrames := 0
  timeNanos := -1
  durationNanos := Int64.maxValue
  periodType := some .blank
  period := 0
  comments := [0, Int64.minValue]
  defaultSampleType := -1

theorem encode_round_trip_extreme :
    extreme.encode.length < 2 ^ 64 ∧ decode extreme.encode = .ok extreme :=
  ⟨by decide +kernel, encode_round_trip extreme (by decide +kernel)⟩

end Profile

end SiteProfiler.Pprof
