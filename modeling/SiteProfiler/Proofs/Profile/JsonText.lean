import Mathlib.Data.Nat.Digits.Lemmas
import SiteProfiler.Profile.CompactJson

/-!
# Reading compact JSON

A reader for compact JSON, and the proof that it inverts the writer: what is written for a value
is read as that value, and as nothing else.  A number has no end mark of its own, so each reader
is followed up to the first character that cannot be a digit.
-/

namespace SiteProfiler.CompactJson

/-- A JSON value made of integers, arrays and objects. -/
inductive Value where
  | integer (value : Int)
  | array (items : List Value)
  | object (members : List (String × Value))

namespace Value

theorem sizeOf_lt_of_mem_members {members : List (String × Value)} {entry : String × Value}
    (hMem : entry ∈ members) : sizeOf entry.2 < sizeOf members := by
  have hEntry := List.sizeOf_lt_of_mem hMem
  obtain ⟨key, value⟩ := entry
  simp only [Prod.mk.sizeOf_spec] at hEntry
  dsimp only
  omega

/-- The pieces in which a value is written. -/
def pieces : Value → Pieces
  | integer value => CompactJson.integer value
  | array items => CompactJson.array (items.map fun item => item.pieces)
  | object members => CompactJson.object (members.map fun entry => (entry.1, entry.2.pieces))
decreasing_by
  · have := List.sizeOf_lt_of_mem ‹_ ∈ items›
    simp only [array.sizeOf_spec]
    omega
  · have := sizeOf_lt_of_mem_members ‹_ ∈ members›
    simp only [object.sizeOf_spec]
    omega

/-- Brackets nest no deeper than a number of levels, and no key has a quote in it. -/
def Fits : Nat → Value → Prop
  | _, integer _ => True
  | 0, _ => False
  | depth + 1, array items => ∀ item ∈ items, item.Fits depth
  | depth + 1, object members => ∀ entry ∈ members, '"' ∉ entry.1.toList ∧ entry.2.Fits depth

end Value

/-- The characters of some pieces. -/
def chars (pieces : Pieces) : List Char := pieces.flatMap String.toList

theorem toList_text (pieces : Pieces) : (text pieces).toList = chars pieces := by
  rw [text, String.toList_join, chars]

@[simp] theorem chars_nil : chars [] = [] := rfl

@[simp] theorem chars_cons (piece : String) (pieces : Pieces) :
    chars (piece :: pieces) = piece.toList ++ chars pieces := List.flatMap_cons

@[simp] theorem chars_append (first second : Pieces) :
    chars (first ++ second) = chars first ++ chars second := List.flatMap_append

theorem separated_cons_cons (first second : Pieces) (rest : List Pieces) :
    separated (first :: second :: rest) = first ++ "," :: separated (second :: rest) := by
  simp [separated]

/-! ## The reader -/

/-- Takes a value from the front of a text, and gives what is left of the text. -/
abbrev Reader (α : Type) := List Char → Option (α × List Char)

variable {α β : Type}

def Reader.map (f : α → β) (read : Reader α) : Reader β := fun input =>
  match read input with
  | some (value, rest) => some (f value, rest)
  | none => none

def readNat : Reader Nat := fun input =>
  if input.takeWhile Char.isDigit = [] then none
  else some (Nat.ofDigitChars 10 (input.takeWhile Char.isDigit) 0, input.dropWhile Char.isDigit)

def readInteger : Reader Int
  | '-' :: input => readNat.map (fun n : Nat => -(n : Int)) input
  | input => readNat.map Int.ofNat input

/-- One or more items with a comma between neighbours, up to and with the closing character. -/
def readItems (close : Char) (read : Reader α) (input : List Char) :
    Option (List α × List Char) :=
  match read input with
  | some (item, mark :: rest) =>
    if mark = close then some ([item], rest)
    -- No reader gives back more than it was given; the bound is there to end the recursion.
    else if mark = ',' ∧ rest.length < input.length then
      (readItems close read rest).map fun (items, rest) => (item :: items, rest)
    else none
  | _ => none
termination_by input.length

/-- Items as above, or none at all. -/
def readSequence (close : Char) (read : Reader α) : Reader (List α)
  | [] => none
  | mark :: rest =>
    if mark = close then some ([], rest) else readItems close read (mark :: rest)

/-- A key in quotes, a colon, and a value. -/
def readMember (read : Reader α) : Reader (String × α)
  | '"' :: input =>
    match input.dropWhile (· ≠ '"') with
    | '"' :: ':' :: rest => read.map (String.ofList (input.takeWhile (· ≠ '"')), ·) rest
    | _ => none
  | _ => none

/-- Reads a value whose brackets nest no deeper than a number of levels. -/
def readValue : Nat → Reader Value
  | depth + 1, '[' :: input => (readSequence ']' (readValue depth)).map .array input
  | depth + 1, '\x7b' :: input =>
    (readSequence '\x7d' (readMember (readValue depth))).map .object input
  | _, input => readInteger.map .integer input

/-! ## What is written is read -/

/-- A text at whose front a number would have ended. -/
def EndsNumber (rest : List Char) : Prop := ∀ c ∈ rest.head?, c.isDigit = false

theorem endsNumber_cons {mark : Char} (hMark : mark.isDigit = false) (rest : List Char) :
    EndsNumber (mark :: rest) := by
  rintro c ⟨⟩
  exact hMark

/-- A reader takes these characters, and no more, for this value. -/
def Reads (read : Reader α) (spelled : List Char) (value : α) : Prop :=
  ∀ rest, EndsNumber rest → read (spelled ++ rest) = some (value, rest)

theorem Reads.map {read : Reader α} {spelled : List Char} {value : α}
    (hReads : Reads read spelled value) (f : α → β) : Reads (read.map f) spelled (f value) := by
  intro rest hRest
  rw [Reader.map, hReads rest hRest]

theorem reads_readNat (n : Nat) : Reads readNat (Nat.toDigits 10 n) n := by
  intro rest hRest
  have hDigits : ∀ c ∈ Nat.toDigits 10 n, c.isDigit = true :=
    fun c => Nat.isDigit_of_mem_toDigits (by decide) (by decide)
  have hStop : rest.takeWhile Char.isDigit = [] ∧ rest.dropWhile Char.isDigit = rest := by
    cases rest with
    | nil => exact ⟨rfl, rfl⟩
    | cons c others => simp [hRest c rfl]
  rw [readNat, List.takeWhile_append_of_pos hDigits, List.dropWhile_append_of_pos hDigits,
    hStop.1, hStop.2, List.append_nil, if_neg Nat.toDigits_ne_nil,
    Nat.ofDigitChars_ten_toDigits]

theorem readInteger_minus (input : List Char) :
    readInteger ('-' :: input) = readNat.map (fun n : Nat => -(n : Int)) input := rfl

theorem readInteger_of_ne {c : Char} (hMark : c ≠ '-') (input : List Char) :
    readInteger (c :: input) = readNat.map Int.ofNat (c :: input) := by
  rw [readInteger]
  rintro _ ⟨⟩
  exact hMark rfl

theorem readInteger_of_not_digit {c : Char} (hDigit : c.isDigit = false) (hMark : c ≠ '-')
    (input : List Char) : readInteger (c :: input) = none := by
  rw [readInteger_of_ne hMark, Reader.map, readNat, List.takeWhile_cons_of_neg (by simp [hDigit]),
    if_pos rfl]

theorem toList_natText (n : Nat) : (natText n).toList = Nat.toDigits 10 n := String.toList_ofList

theorem reads_readInteger (value : Int) : Reads readInteger (intText value).toList value := by
  intro rest hRest
  rw [intText]
  split
  next hNegative =>
    have hText : ("-" ++ natText value.natAbs).toList = '-' :: Nat.toDigits 10 value.natAbs := by
      rw [String.toList_append, toList_natText]
      rfl
    rw [hText, List.cons_append, readInteger_minus, (reads_readNat _).map _ rest hRest]
    congr 2
    omega
  next hPositive =>
    have hReads := (reads_readNat value.natAbs).map Int.ofNat rest hRest
    rw [toList_natText]
    cases hText : Nat.toDigits 10 value.natAbs with
    | nil => exact absurd hText Nat.toDigits_ne_nil
    | cons c digits =>
      have hDigit : c.isDigit = true :=
        Nat.isDigit_of_mem_toDigits (by decide) (by decide) (hText ▸ List.mem_cons_self)
      have hMark : c ≠ '-' := by
        rintro rfl
        exact absurd hDigit (by decide)
      rw [hText, List.cons_append] at hReads
      rw [List.cons_append, readInteger_of_ne hMark, hReads]
      congr 2
      exact Int.natAbs_of_nonneg (Int.not_lt.mp hPositive)

section Sequences

variable {close : Char} {read : Reader α} {spell : α → Pieces}

theorem readItems_last {input rest : List Char} {item : α}
    (hItem : read input = some (item, close :: rest)) :
    readItems close read input = some ([item], rest) := by
  rw [readItems, hItem]
  exact if_pos rfl

theorem readItems_comma (hComma : close ≠ ',') {input rest : List Char} {item : α}
    (hItem : read input = some (item, ',' :: rest)) (hShorter : rest.length < input.length) :
    readItems close read input =
      (readItems close read rest).map fun taken => (item :: taken.1, taken.2) := by
  rw [readItems, hItem]
  simp only [if_neg hComma.symm, hShorter, and_self, if_true]

theorem readItems_separated (hClose : close.isDigit = false) (hComma : close ≠ ',')
    {values : List α} (hReads : ∀ value ∈ values, Reads read (chars (spell value)) value)
    (hSome : values ≠ []) (rest : List Char) :
    readItems close read (chars (separated (values.map spell)) ++ close :: rest) =
      some (values, rest) := by
  induction values with
  | nil => exact absurd rfl hSome
  | cons first others ih =>
    have hFirst := hReads first List.mem_cons_self
    cases others with
    | nil =>
      have hItem := hFirst (close :: rest) (endsNumber_cons hClose rest)
      rw [List.map_singleton, separated, List.flatMap_nil, List.append_nil]
      exact readItems_last hItem
    | cons second others =>
      have hRest := ih (fun value hMem => hReads value (List.mem_cons_of_mem first hMem))
        (List.cons_ne_nil second others)
      have hItem := hFirst (',' :: (chars (separated ((second :: others).map spell)) ++
        close :: rest)) (endsNumber_cons (by decide) _)
      rw [List.map_cons, List.map_cons, separated_cons_cons, chars_append, chars_cons,
        List.append_assoc, ← List.map_cons]
      rw [show ",".toList = [','] from rfl, List.singleton_append, List.cons_append]
      rw [readItems_comma hComma hItem (by simp only [List.length_append, List.length_cons]; omega),
        hRest, Option.map_some]

theorem readItems_of_none {input : List Char} (hNone : read input = none) :
    readItems close read input = none := by
  rw [readItems, hNone]

theorem readSequence_separated (hClose : close.isDigit = false) (hComma : close ≠ ',')
    (hNone : ∀ rest, read (close :: rest) = none) {values : List α}
    (hReads : ∀ value ∈ values, Reads read (chars (spell value)) value) (rest : List Char) :
    readSequence close read (chars (separated (values.map spell)) ++ close :: rest) =
      some (values, rest) := by
  cases values with
  | nil => exact if_pos rfl
  | cons first others =>
    have hItems := readItems_separated hClose hComma hReads (List.cons_ne_nil first others) rest
    cases hText : chars (separated ((first :: others).map spell)) ++ close :: rest with
    | nil => exact absurd hText (by simp)
    | cons mark left =>
      rw [hText] at hItems
      -- An item cannot begin with the closing character, so this is not taken for no items.
      have hMark : mark ≠ close := by
        rintro rfl
        exact absurd (hItems.symm.trans (readItems_of_none (hNone left))) (Option.some_ne_none _)
      rw [readSequence, if_neg hMark, hItems]

theorem reads_readMember {key : String} (hKey : '"' ∉ key.toList) {pieces : Pieces} {value : α}
    (hReads : Reads read (chars pieces) value) :
    Reads (readMember read) (chars (member key pieces)) (key, value) := by
  intro rest hRest
  have hInside : ∀ c ∈ key.toList, decide (c ≠ '"') = true := fun c hMem =>
    decide_eq_true fun hQuote => hKey (hQuote ▸ hMem)
  have hText : chars (member key pieces) ++ rest =
      '"' :: (key.toList ++ '"' :: ':' :: (chars pieces ++ rest)) := by
    simp [member]
  have hDrop : (key.toList ++ '"' :: ':' :: (chars pieces ++ rest)).dropWhile (· ≠ '"') =
      '"' :: ':' :: (chars pieces ++ rest) := by
    rw [List.dropWhile_append_of_pos hInside]
    rfl
  have hTake : (key.toList ++ '"' :: ':' :: (chars pieces ++ rest)).takeWhile (· ≠ '"') =
      key.toList := by
    rw [List.takeWhile_append_of_pos hInside]
    exact List.append_nil _
  rw [hText, readMember, hDrop]
  simp only [hTake, String.ofList_toList]
  exact hReads.map _ rest hRest

theorem readMember_of_ne {mark : Char} (hMark : mark ≠ '"') (rest : List Char) :
    readMember read (mark :: rest) = none := by
  rw [readMember]
  rintro _ ⟨⟩
  exact hMark rfl

end Sequences

theorem readValue_of_readInteger {input rest : List Char} {value : Int}
    (hRead : readInteger input = some (value, rest)) (depth : Nat) :
    readValue depth input = some (.integer value, rest) := by
  have hNoBracket (mark : Char) (hDigit : mark.isDigit = false) (hMark : mark ≠ '-')
      (others : List Char) : input ≠ mark :: others := by
    rintro rfl
    rw [readInteger_of_not_digit hDigit hMark] at hRead
    exact absurd hRead nofun
  rw [readValue, Reader.map, hRead]
  · exact fun _ others _ => hNoBracket '[' (by decide) (by decide) others
  · exact fun _ others _ => hNoBracket '\x7b' (by decide) (by decide) others

theorem readValue_of_closing (depth : Nat) (rest : List Char) :
    readValue depth (']' :: rest) = none := by
  rw [readValue, Reader.map, readInteger_of_not_digit (by decide) (by decide)]
  all_goals simp

namespace Value

theorem reads_integer (depth : Nat) (value : Int) :
    Reads (readValue depth) (chars (integer value).pieces) (.integer value) := by
  intro rest hRest
  rw [pieces, CompactJson.integer, chars_cons, chars_nil, List.append_nil]
  exact readValue_of_readInteger (reads_readInteger value rest hRest) depth

theorem reads_array {depth : Nat} {items : List Value}
    (hItems : ∀ item ∈ items, Reads (readValue depth) (chars item.pieces) item) :
    Reads (readValue (depth + 1)) (chars (array items).pieces) (.array items) := by
  intro rest _
  have hRead : readSequence ']' (readValue depth)
      (chars (separated (items.map fun item => item.pieces)) ++ ']' :: rest) =
        some (items, rest) :=
    readSequence_separated (by decide) (by decide) (readValue_of_closing depth) hItems rest
  have hText : chars (array items).pieces ++ rest =
      '[' :: (chars (separated (items.map fun item => item.pieces)) ++ ']' :: rest) := by
    simp [pieces, CompactJson.array]
  rw [hText, readValue, Reader.map, hRead]

theorem reads_object {depth : Nat} {members : List (String × Value)}
    (hMembers : ∀ entry ∈ members, '"' ∉ entry.1.toList ∧
      Reads (readValue depth) (chars entry.2.pieces) entry.2) :
    Reads (readValue (depth + 1)) (chars (object members).pieces) (.object members) := by
  intro rest _
  have hRead : readSequence '\x7d' (readMember (readValue depth))
      (chars (separated (members.map fun entry => member entry.1 entry.2.pieces)) ++
        '\x7d' :: rest) = some (members, rest) :=
    readSequence_separated (by decide) (by decide) (readMember_of_ne (by decide))
      (fun entry hMem => reads_readMember (hMembers entry hMem).1 (hMembers entry hMem).2) rest
  have hText : chars (object members).pieces ++ rest =
      '\x7b' :: (chars (separated (members.map fun entry => member entry.1 entry.2.pieces)) ++
        '\x7d' :: rest) := by
    simp [pieces, CompactJson.object, Function.comp_def]
  rw [hText, readValue, Reader.map, hRead]

/-- What is written for a value is read as the value. -/
theorem reads_pieces {depth : Nat} {value : Value} (hFits : value.Fits depth) :
    Reads (readValue depth) (chars value.pieces) value := by
  induction depth generalizing value with
  | zero =>
    cases value with
    | integer value => exact reads_integer 0 value
    | array items => exact hFits.elim
    | object members => exact hFits.elim
  | succ depth ih =>
    cases value with
    | integer value => exact reads_integer (depth + 1) value
    | array items => exact reads_array fun item hMem => ih (hFits item hMem)
    | object members =>
      exact reads_object fun entry hMem => ⟨(hFits entry hMem).1, ih (hFits entry hMem).2⟩

/-- The value of a whole text. -/
def ofText? (depth : Nat) (text : String) : Option Value :=
  match readValue depth text.toList with
  | some (value, []) => some value
  | _ => none

theorem ofText?_text {depth : Nat} {value : Value} (hFits : value.Fits depth) :
    ofText? depth (text value.pieces) = some value := by
  have hRead := reads_pieces hFits [] nofun
  rw [List.append_nil] at hRead
  rw [ofText?, toList_text, hRead]

end Value

end SiteProfiler.CompactJson
