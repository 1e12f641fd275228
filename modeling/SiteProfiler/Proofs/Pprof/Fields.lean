import SiteProfiler.Proofs.Pprof.Spelling

/-!
# Reading back what was written

A varint, a key and a field are read back from the front of the bytes, whatever follows them.
From this, the fields of a message can be folded into it one piece of writing at a time: what a
number, a packed list or a list of nested contents adds to a message is what the message's own
rule adds for its field.
-/

namespace SiteProfiler.Pprof

/-! ## Varints -/

theorem length_groups_le (more n : Nat) : (groups more n).length ≤ more + 1 := by
  induction more generalizing n with
  | zero => exact Nat.le_refl 1
  | succ more ih =>
    rw [groups]
    split
    · exact Nat.le_add_left 1 _
    · exact Nat.succ_le_succ (ih (n / 128))

theorem length_varint_le (word : UInt64) : (varint word).length ≤ 10 :=
  length_groups_le 9 word.toNat

theorem length_flatMap_varint_le (words : List UInt64) :
    (words.flatMap varint).length ≤ 10 * words.length := by
  induction words with
  | nil => exact Nat.le_refl 0
  | cons word rest ih =>
    have hWord := length_varint_le word
    simp only [List.flatMap_cons, List.length_append, List.length_cons]
    omega

/-! ## Packed lists -/

theorem readWords_congr {bytes : List UInt8} {steps others : Nat} (hSteps : bytes.length ≤ steps)
    (hOthers : bytes.length ≤ others) : readWords steps bytes = readWords others bytes := by
  induction steps generalizing bytes others with
  | zero =>
    rw [List.eq_nil_of_length_eq_zero (Nat.le_zero.1 hSteps)]
    simp only [readWords]
  | succ steps ih =>
    cases bytes with
    | nil => simp only [readWords]
    | cons byte tail =>
      obtain ⟨fewer, rfl⟩ : ∃ fewer, others = fewer + 1 :=
        ⟨others - 1, by simp only [List.length_cons] at hOthers; omega⟩
      simp only [readWords]
      cases hRead : readVarint (byte :: tail) with
      | error e => rfl
      | ok pair =>
        have hShorter := length_readVarint hRead
        simp only [List.length_cons] at hSteps hOthers hShorter
        have hLeft : pair.2.length ≤ steps := by omega
        have hFewer : pair.2.length ≤ fewer := by omega
        simp only [ih hLeft hFewer]

theorem readPacked_of_spellsAll {bytes : List UInt8} {words : List UInt64}
    (spellsAll : SpellsAll bytes words) : readPacked bytes = .ok words := by
  induction spellsAll with
  | nil => rfl
  | @cons front rest word words spells _ ih =>
    have hRead := readVarint_of_spells spells rest
    have hShorter := length_readVarint hRead
    rw [UInt64.ofNat_toNat] at hRead
    rw [readPacked] at ih ⊢
    generalize front ++ rest = bytes at hRead hShorter ⊢
    cases bytes with
    | nil => exact absurd hShorter (Nat.not_lt_zero _)
    | cons byte tail =>
      simp only [List.length_cons] at hShorter ⊢
      simp only [readWords, hRead]
      rw [readWords_congr (Nat.le_of_lt_succ hShorter) (Nat.le_refl _), ih]

theorem readPacked_varints (words : List UInt64) :
    readPacked (words.flatMap varint) = .ok words :=
  readPacked_of_spellsAll (spellsAll_varints words)

/-! ## Fields -/

theorem readField_varint {number : Nat} (hNumber : IsFieldNumber number) (limit : Nat)
    (word : UInt64) (rest : List UInt8) :
    readField limit (key number .varint ++ varint word ++ rest) =
      .ok (⟨number, .word word⟩, rest) := by
  rw [List.append_assoc]
  simp only [readField, readKey_of_keyOf (keyOf_key hNumber .varint),
    readPayload_of_holds (.word (spells_varint word))]

theorem readField_delimited {number : Nat} (hNumber : IsFieldNumber number) (limit : Nat)
    {content : List UInt8} (hLength : content.length < 2 ^ 64) (rest : List UInt8) :
    readField limit (delimited number content ++ rest) =
      .ok (⟨number, .delimited content⟩, rest) := by
  rw [delimited, List.append_assoc, List.append_assoc, ← List.append_assoc (groups 9 _)]
  simp only [readField, readKey_of_keyOf (keyOf_key hNumber .delimited),
    readPayload_of_holds (.delimited (spells_groups hLength))]

/-! ## Fields take bytes -/

theorem length_readKey {bytes rest : List UInt8} {number : Nat} {wireType : WireType}
    (hRead : readKey bytes = .ok (number, wireType, rest)) : rest.length < bytes.length := by
  unfold readKey at hRead
  split at hRead
  · cases hRead
  · next hVarint =>
    have hShorter := length_readVarint hVarint
    grind

theorem length_readBytes {count : Nat} {bytes content rest : List UInt8}
    (hRead : readBytes count bytes = .ok (content, rest)) : rest.length ≤ bytes.length := by
  grind [readBytes]

theorem length_readPayload {wireType : WireType} {bytes rest : List UInt8} {payload : Payload}
    (hRead : readPayload wireType bytes = .ok (payload, rest)) :
    rest.length ≤ bytes.length := by
  cases wireType <;> grind [readPayload, → length_readVarint, → length_readBytes]

theorem length_passGroups {limit steps : Nat} {opened : List Nat} {bytes rest : List UInt8}
    (hPass : passGroups limit steps opened bytes = .ok rest) : rest.length ≤ bytes.length := by
  fun_induction passGroups limit steps opened bytes <;>
    grind [→ length_readKey, → length_readPayload]

theorem length_readField {limit : Nat} {bytes rest : List UInt8} {field : Field}
    (hRead : readField limit bytes = .ok (field, rest)) : rest.length < bytes.length := by
  unfold readField at hRead
  grind [→ length_readKey, → length_passGroups, → length_readPayload]

theorem readFieldsWithin_congr {limit : Nat} {bytes : List UInt8} {steps others : Nat}
    (hSteps : bytes.length ≤ steps) (hOthers : bytes.length ≤ others) :
    readFieldsWithin limit steps bytes = readFieldsWithin limit others bytes := by
  induction steps generalizing bytes others with
  | zero =>
    rw [List.eq_nil_of_length_eq_zero (Nat.le_zero.1 hSteps)]
    simp only [readFieldsWithin]
  | succ steps ih =>
    cases bytes with
    | nil => simp only [readFieldsWithin]
    | cons byte tail =>
      obtain ⟨fewer, rfl⟩ : ∃ fewer, others = fewer + 1 :=
        ⟨others - 1, by simp only [List.length_cons] at hOthers; omega⟩
      simp only [readFieldsWithin]
      cases hRead : readField limit (byte :: tail) with
      | error e => rfl
      | ok pair =>
        have hShorter := length_readField hRead
        simp only [List.length_cons] at hSteps hOthers hShorter
        have hLeft : pair.2.length ≤ steps := by omega
        have hFewer : pair.2.length ≤ fewer := by omega
        simp only [ih hLeft hFewer]

theorem readFields_of_readField {limit : Nat} {bytes rest : List UInt8} {field : Field}
    (hRead : readField limit bytes = .ok (field, rest)) :
    readFields limit bytes = (readFields limit rest).map (field :: ·) := by
  have hShorter := length_readField hRead
  cases bytes with
  | nil => exact absurd hShorter (Nat.not_lt_zero _)
  | cons byte tail =>
    simp only [List.length_cons] at hShorter
    simp only [readFields, List.length_cons, readFieldsWithin, hRead]
    rw [readFieldsWithin_congr (Nat.le_of_lt_succ hShorter) (Nat.le_refl _)]
    cases readFieldsWithin limit rest.length rest <;> rfl

/-! ## Folding fields into a message -/

section Folding

variable {M α : Type} {limit : Nat} {add : M → Field → Except WireError M} {message : M}

/-- The message after the fields of the bytes have been added to it. -/
def foldFields (limit : Nat) (add : M → Field → Except WireError M) (message : M)
    (bytes : List UInt8) : Except WireError M := do
  (← readFields limit bytes).foldlM add message

theorem foldFields_nil : foldFields limit add message [] = .ok message := rfl

theorem foldFields_of_readField {bytes rest : List UInt8} {field : Field} {next : M}
    (hRead : readField limit bytes = .ok (field, rest)) (hAdd : add message field = .ok next) :
    foldFields limit add message bytes = foldFields limit add next rest := by
  rw [foldFields, readFields_of_readField hRead, foldFields]
  cases readFields limit rest with
  | error e => rfl
  | ok fields =>
    show (add message field).bind _ = fields.foldlM add next
    rw [hAdd]
    rfl

/-- A number is added by its field, or is left out as zero. -/
theorem foldFields_scalar {number : Nat} (hNumber : IsFieldNumber number) (put : M → UInt64 → M)
    (hAdd : ∀ word, word ≠ 0 → add message ⟨number, .word word⟩ = .ok (put message word))
    (hZero : put message 0 = message) (word : UInt64) (rest : List UInt8) :
    foldFields limit add message (scalar number word ++ rest) =
      foldFields limit add (put message word) rest := by
  rw [scalar]
  split
  · next hWord => rw [hWord, hZero, List.nil_append]
  · next hWord =>
    exact foldFields_of_readField (readField_varint hNumber limit word rest) (hAdd word hWord)

/-- A nested content is added by its field. -/
theorem foldFields_delimited {number : Nat} (hNumber : IsFieldNumber number)
    {content : List UInt8} {next : M} (hLength : content.length < 2 ^ 64)
    (hAdd : add message ⟨number, .delimited content⟩ = .ok next) (rest : List UInt8) :
    foldFields limit add message (delimited number content ++ rest) =
      foldFields limit add next rest :=
  foldFields_of_readField (readField_delimited hNumber limit hLength rest) hAdd

/-- Nested contents, one field each, are added in order; `put` adds several items at once. -/
theorem foldFields_each {number : Nat} (hNumber : IsFieldNumber number) {content : α → List UInt8}
    (put : M → List α → M) (hNil : ∀ message, put message [] = message)
    (hCons : ∀ message first rest, put (put message [first]) rest = put message (first :: rest))
    {items : List α} (hLength : ∀ item ∈ items, (content item).length < 2 ^ 64)
    (hAdd : ∀ message, ∀ item ∈ items,
      add message ⟨number, .delimited (content item)⟩ = .ok (put message [item]))
    (rest : List UInt8) :
    foldFields limit add message
        (items.flatMap (fun item => delimited number (content item)) ++ rest) =
      foldFields limit add (put message items) rest := by
  induction items generalizing message with
  | nil => rw [hNil, List.flatMap_nil, List.nil_append]
  | cons first others ih =>
    have hFirst := hAdd message first List.mem_cons_self
    rw [List.flatMap_cons, List.append_assoc,
      foldFields_delimited hNumber (hLength first List.mem_cons_self) hFirst,
      ih (fun item hItem => hLength item (List.mem_cons_of_mem first hItem))
        (fun message item hItem => hAdd message item (List.mem_cons_of_mem first hItem)), hCons]

/-- A packed list is added by its one field, or is left out as empty. -/
theorem foldFields_packed {number : Nat} (hNumber : IsFieldNumber number) {words : List UInt64}
    {next : M} (hLength : (words.flatMap varint).length < 2 ^ 64)
    (hAdd : ∀ payload, payload.words? = .ok words → add message ⟨number, payload⟩ = .ok next)
    (hNil : words = [] → next = message) (rest : List UInt8) :
    foldFields limit add message (packed number words ++ rest) =
      foldFields limit add next rest := by
  rw [packed]
  split
  · next hWords => rw [hNil hWords, List.nil_append]
  · exact foldFields_delimited hNumber hLength (hAdd _ (readPacked_varints words)) rest

end Folding

end SiteProfiler.Pprof
