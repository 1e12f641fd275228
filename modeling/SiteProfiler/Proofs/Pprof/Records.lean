import SiteProfiler.Proofs.Pprof.Fields

/-!
# Records on the wire

The records of a message, said without the reader: a key and a payload, or a group, which holds
records between two keys of the same number.  The reader of a message accepts exactly the sequences
of such records, and it reads each record by itself, whatever follows.
-/

namespace SiteProfiler.Pprof

/-- The bytes are a record of a field.  Room for a record is left where fewer than the allowed
number of groups are open; a group takes up one place for the records inside it. -/
inductive Record : (room : Nat) → Field → List UInt8 → Prop
  | plain {room number : Nat} {wireType : WireType} {payload : Payload} {front body : List UInt8}
      (hKey : KeyOf number wireType front) (hHolds : Holds wireType payload body) :
      Record (room + 1) ⟨number, payload⟩ (front ++ body)
  | group {room number : Nat} {opening closing : List UInt8} {inside : List (Field × List UInt8)}
      (hOpening : KeyOf number .groupStart opening)
      (hInside : ∀ record ∈ inside, Record room record.1 record.2)
      (hClosing : KeyOf number .groupEnd closing) :
      Record (room + 1) ⟨number, .passedOver .groupStart⟩
        (opening ++ inside.flatMap Prod.snd ++ closing)

/-- The bytes are whole records of fields, one after the other. -/
inductive Records (room : Nat) : List Field → List UInt8 → Prop
  | nil : Records room [] []
  | cons {field : Field} {fields : List Field} {front rest : List UInt8}
      (hFirst : Record room field front) (hRest : Records room fields rest) :
      Records room (field :: fields) (front ++ rest)

variable {room limit : Nat} {field : Field} {fields : List Field} {front rest bytes : List UInt8}

theorem Record.single (record : Record room field front) : Records room [field] front := by
  have records := Records.cons record .nil
  rwa [List.append_nil] at records

/-- Whole records are the records of a list, one after the other. -/
theorem Records.exists_inside (records : Records room fields bytes) :
    ∃ inside : List (Field × List UInt8), (∀ record ∈ inside, Record room record.1 record.2) ∧
      inside.flatMap Prod.snd = bytes := by
  induction records with
  | nil => exact ⟨[], List.forall_mem_nil _, rfl⟩
  | @cons field _ front _ first _ ih =>
    obtain ⟨inside, hInside, rfl⟩ := ih
    exact ⟨(field, front) :: inside, List.forall_mem_cons.2 ⟨first, hInside⟩, rfl⟩

/-! ## Groups are passed over -/

section Groups

variable {opened outer : List Nat} {number innermost steps : Nat} {wireType : WireType}
  {payload : Payload} {left : List UInt8}

theorem passGroups_end (hKey : readKey bytes = .ok (innermost, .groupEnd, rest)) :
    passGroups limit (steps + 1) (innermost :: outer) bytes =
      passGroups limit steps outer rest := by
  simp only [passGroups, hKey, if_pos]

theorem passGroups_start (hKey : readKey bytes = .ok (number, .groupStart, rest))
    (hRoom : outer.length + 1 < limit) :
    passGroups limit (steps + 1) (innermost :: outer) bytes =
      passGroups limit steps (number :: innermost :: outer) rest := by
  simp only [passGroups, hKey, List.length_cons, if_neg (Nat.not_le.2 hRoom), if_pos]

theorem passGroups_plain (hKey : readKey bytes = .ok (number, wireType, rest))
    (hPayload : readPayload wireType rest = .ok (payload, left))
    (hRoom : outer.length + 1 < limit) :
    passGroups limit (steps + 1) (innermost :: outer) bytes =
      passGroups limit steps (innermost :: outer) left := by
  cases wireType with
  | groupStart => cases hPayload
  | groupEnd => cases hPayload
  | _ =>
    simp only [passGroups, hKey, List.length_cons, if_neg (Nat.not_le.2 hRoom), reduceCtorEq,
      if_false, hPayload]

/-- Where these groups are open, the bytes are passed over, and steps enough are left for what
follows them. -/
def Passes (limit : Nat) (opened : List Nat) (front : List UInt8) : Prop :=
  ∀ rest steps, (front ++ rest).length ≤ steps → ∃ fewer, rest.length ≤ fewer ∧
    passGroups limit steps opened (front ++ rest) = passGroups limit fewer opened rest

theorem passes_flatMap {inside : List (Field × List UInt8)}
    (hInside : ∀ record ∈ inside, Passes limit opened record.2) :
    Passes limit opened (inside.flatMap Prod.snd) := by
  induction inside with
  | nil => exact fun rest steps hSteps => ⟨steps, hSteps, rfl⟩
  | cons first others ih =>
    obtain ⟨hFirst, hOthers⟩ := List.forall_mem_cons.1 hInside
    intro rest steps hSteps
    rw [List.flatMap_cons, List.append_assoc] at hSteps ⊢
    obtain ⟨fewer, hFewer, hPassed⟩ := hFirst _ steps hSteps
    rw [hPassed]
    exact ih hOthers rest fewer hFewer

/-- Records between the keys of a group are passed over together with the end of the group. -/
theorem passGroups_inside {inside closing : List UInt8}
    (hInside : Passes limit (number :: outer) inside) (hClosing : KeyOf number .groupEnd closing)
    (hSteps : (inside ++ (closing ++ rest)).length ≤ steps) :
    ∃ fewer, rest.length ≤ fewer ∧
      passGroups limit steps (number :: outer) (inside ++ (closing ++ rest)) =
        passGroups limit fewer outer rest := by
  obtain ⟨fewer, hFewer, hPassed⟩ := hInside (closing ++ rest) steps hSteps
  have hEnd := readKey_of_keyOf hClosing rest
  have hShorter := length_readKey hEnd
  obtain ⟨last, rfl⟩ : ∃ last, fewer = last + 1 := ⟨fewer - 1, by omega⟩
  exact ⟨last, by omega, hPassed.trans (passGroups_end hEnd)⟩

theorem Record.passes (record : Record room field front) (hOpened : opened ≠ [])
    (hRoom : opened.length + room = limit) : Passes limit opened front := by
  induction record generalizing opened with
  | @plain room number wireType payload front body hKey hHolds =>
    intro rest steps hSteps
    obtain ⟨innermost, outer, rfl⟩ := List.exists_cons_of_ne_nil hOpened
    rw [List.length_cons] at hRoom
    rw [List.append_assoc] at hSteps ⊢
    have hRead := readKey_of_keyOf hKey (body ++ rest)
    have hShorter := length_readKey hRead
    have hPayload := readPayload_of_holds hHolds rest
    have hRest := length_readPayload hPayload
    obtain ⟨fewer, rfl⟩ : ∃ fewer, steps = fewer + 1 := ⟨steps - 1, by omega⟩
    exact ⟨fewer, by omega, passGroups_plain hRead hPayload (by omega)⟩
  | @group room number opening closing inside hOpening _ hClosing ih =>
    intro rest steps hSteps
    obtain ⟨innermost, outer, rfl⟩ := List.exists_cons_of_ne_nil hOpened
    rw [List.length_cons] at hRoom
    simp only [List.append_assoc] at hSteps ⊢
    have hInside : Passes limit (number :: innermost :: outer) (inside.flatMap Prod.snd) :=
      passes_flatMap fun record hMem =>
        ih record hMem (List.cons_ne_nil _ _) (by simp only [List.length_cons]; omega)
    have hRead := readKey_of_keyOf hOpening (inside.flatMap Prod.snd ++ (closing ++ rest))
    have hShorter := length_readKey hRead
    obtain ⟨fewer, rfl⟩ : ∃ fewer, steps = fewer + 1 := ⟨steps - 1, by omega⟩
    rw [passGroups_start hRead (by omega)]
    exact passGroups_inside hInside hClosing (by omega)

/-- The bytes end the open groups, innermost first: each has records left, and then its end. -/
inductive Closes (limit : Nat) : List Nat → List UInt8 → Prop
  | nil : Closes limit [] []
  | cons {number : Nat} {outer : List Nat} {fields : List Field} {inside closing rest : List UInt8}
      (hInside : Records (limit - (outer.length + 1)) fields inside)
      (hClosing : KeyOf number .groupEnd closing) (hOuter : Closes limit outer rest) :
      Closes limit (number :: outer) (inside ++ closing ++ rest)

/-- One more record inside the innermost group. -/
theorem Closes.cons_record {number : Nat} {outer : List Nat}
    (record : Record (limit - (outer.length + 1)) field front)
    (closes : Closes limit (number :: outer) bytes) :
    Closes limit (number :: outer) (front ++ bytes) := by
  obtain - | @⟨_, _, fields, inside, closing, rest, hInside, hClosing, hOuter⟩ := closes
  rw [← List.append_assoc, ← List.append_assoc]
  exact .cons (.cons record hInside) hClosing hOuter

/-- One more plain record inside the innermost group. -/
theorem Closes.cons_plain {innermost number : Nat} {outer : List Nat} {wireType : WireType}
    {payload : Payload} {key body : List UInt8} (hRoom : outer.length + 1 < limit)
    (hKey : KeyOf number wireType key) (hHolds : Holds wireType payload body)
    (closes : Closes limit (innermost :: outer) bytes) :
    Closes limit (innermost :: outer) (key ++ body ++ bytes) := by
  obtain ⟨room, hRoomEq⟩ : ∃ room, limit - (outer.length + 1) = room + 1 :=
    ⟨limit - (outer.length + 1) - 1, by omega⟩
  have record : Record (room + 1) ⟨number, payload⟩ (key ++ body) := .plain hKey hHolds
  rw [← hRoomEq] at record
  exact closes.cons_record record

/-- Where a group is opened inside the innermost one and all are ended, the new group is one
record of the innermost one. -/
theorem Closes.cons_group {innermost number : Nat} {outer : List Nat} {key : List UInt8}
    (hRoom : outer.length + 1 < limit) (hKey : KeyOf number .groupStart key)
    (closes : Closes limit (number :: innermost :: outer) bytes) :
    Closes limit (innermost :: outer) (key ++ bytes) := by
  obtain - | @⟨_, _, fields, inside, closing, rest, hInside, hClosing, hOuter⟩ := closes
  obtain ⟨room, hRoomEq⟩ : ∃ room, limit - (outer.length + 1) = room + 1 :=
    ⟨limit - (outer.length + 1) - 1, by omega⟩
  have hRoomInside : limit - ((innermost :: outer).length + 1) = room := by
    rw [List.length_cons]
    omega
  obtain ⟨records, hRecords, rfl⟩ := hInside.exists_inside
  rw [hRoomInside] at hRecords
  have record := Record.group hKey hRecords hClosing
  rw [← hRoomEq] at record
  simpa only [List.append_assoc] using hOuter.cons_record record

theorem closes_of_passGroups
    (hPassed : passGroups limit steps opened bytes = .ok rest) :
    ∃ front, bytes = front ++ rest ∧ Closes limit opened front := by
  induction steps generalizing opened bytes with
  | zero =>
    cases opened with
    | nil =>
      simp only [passGroups, Except.ok.injEq] at hPassed
      exact ⟨[], hPassed, .nil⟩
    | cons innermost outer => cases hPassed
  | succ steps ih =>
    cases opened with
    | nil =>
      simp only [passGroups, Except.ok.injEq] at hPassed
      exact ⟨[], hPassed, .nil⟩
    | cons innermost outer =>
      rw [passGroups] at hPassed
      split at hPassed
      next => cases hPassed
      next number left hKey =>
        obtain ⟨closing, rfl, keyOf⟩ := keyOf_of_readKey hKey
        split at hPassed
        next hSame =>
          obtain ⟨after, rfl, closes⟩ := ih hPassed
          subst hSame
          exact ⟨closing ++ after, (List.append_assoc ..).symm, .cons .nil keyOf closes⟩
        next => cases hPassed
      next number wireType left hNoEnd hKey =>
        obtain ⟨key, rfl, keyOf⟩ := keyOf_of_readKey hKey
        split at hPassed
        next => cases hPassed
        next hRoom =>
          have hDepth : outer.length + 1 < limit := Nat.lt_of_not_le hRoom
          split at hPassed
          next hGroup =>
            subst hGroup
            obtain ⟨front, rfl, closes⟩ := ih hPassed
            exact ⟨key ++ front, (List.append_assoc ..).symm, closes.cons_group hDepth keyOf⟩
          next =>
            split at hPassed
            next => cases hPassed
            next payload after hPayload =>
              obtain ⟨body, rfl, holds⟩ := holds_of_readPayload hPayload
              obtain ⟨front, rfl, closes⟩ := ih hPassed
              exact ⟨_, by simp only [List.append_assoc], closes.cons_plain hDepth keyOf holds⟩

end Groups

/-! ## Reading records -/

theorem Record.readField (record : Record limit field front) (rest : List UInt8) :
    readField limit (front ++ rest) = .ok (field, rest) := by
  cases record with
  | @plain room number wireType payload front body hKey hHolds =>
    have hRead := readKey_of_keyOf hKey (body ++ rest)
    have hPayload := readPayload_of_holds hHolds rest
    rw [List.append_assoc, Pprof.readField, hRead]
    cases hHolds <;> simp only [hPayload]
  | @group room number opening closing inside hOpening hInside hClosing =>
    have hPasses : Passes (room + 1) [number] (inside.flatMap Prod.snd) :=
      passes_flatMap fun record hMem =>
        (hInside record hMem).passes (List.cons_ne_nil _ _) (Nat.add_comm 1 room)
    obtain ⟨fewer, -, hPassed⟩ :=
      passGroups_inside hPasses hClosing (Nat.le_refl (_ ++ (closing ++ rest)).length)
    rw [List.append_assoc, List.append_assoc, Pprof.readField, readKey_of_keyOf hOpening]
    simp only [hPassed, passGroups]

theorem record_of_readField (hLimit : 0 < limit)
    (hRead : readField limit bytes = .ok (field, rest)) :
    ∃ front, bytes = front ++ rest ∧ Record limit field front := by
  obtain ⟨room, rfl⟩ : ∃ room, limit = room + 1 := ⟨limit - 1, by omega⟩
  unfold readField at hRead
  split at hRead
  next => cases hRead
  next number left hKey =>
    split at hRead
    next => cases hRead
    next after hPassed =>
      cases hRead
      obtain ⟨opening, rfl, keyOf⟩ := keyOf_of_readKey hKey
      obtain ⟨front, rfl, closes⟩ := closes_of_passGroups hPassed
      obtain - | @⟨_, _, fields, inside, closing, _, hInside, hClosing, hOuter⟩ := closes
      obtain ⟨records, hRecords, rfl⟩ := hInside.exists_inside
      cases hOuter
      rw [List.append_nil]
      exact ⟨_, by simp only [List.append_assoc], .group keyOf hRecords hClosing⟩
  next number wireType left hNoStart hKey =>
    split at hRead
    next => cases hRead
    next payload after hPayload =>
      cases hRead
      obtain ⟨key, rfl, keyOf⟩ := keyOf_of_readKey hKey
      obtain ⟨body, rfl, holds⟩ := holds_of_readPayload hPayload
      exact ⟨_, (List.append_assoc ..).symm, .plain keyOf holds⟩

/-- Whole records are read as their fields, whatever follows them. -/
theorem Records.readFields (records : Records limit fields front) (rest : List UInt8) :
    readFields limit (front ++ rest) = (readFields limit rest).map (fields ++ ·) := by
  induction records with
  | nil =>
    rw [List.nil_append]
    cases Pprof.readFields limit rest <;> rfl
  | cons first _ ih =>
    rw [List.append_assoc, readFields_of_readField (first.readField _), ih]
    cases Pprof.readFields limit rest <;> rfl

theorem records_of_readFieldsWithin (hLimit : 0 < limit) {steps : Nat}
    (hRead : readFieldsWithin limit steps bytes = .ok fields) : Records limit fields bytes := by
  induction steps generalizing bytes fields with
  | zero =>
    cases bytes with
    | nil =>
      cases hRead
      exact .nil
    | cons byte tail => cases hRead
  | succ steps ih =>
    cases bytes with
    | nil =>
      simp only [readFieldsWithin, Except.ok.injEq] at hRead
      exact hRead ▸ .nil
    | cons byte tail =>
      simp only [readFieldsWithin] at hRead
      split at hRead
      next => cases hRead
      next field rest hField =>
        split at hRead
        next => cases hRead
        next others hOthers =>
          cases hRead
          obtain ⟨front, hBytes, record⟩ := record_of_readField hLimit hField
          exact hBytes ▸ .cons record (ih hOthers)

/-- A message is read exactly if it consists of whole records. -/
theorem readFields_eq_ok_iff (hLimit : 0 < limit) :
    readFields limit bytes = .ok fields ↔ Records limit fields bytes := by
  constructor
  · exact records_of_readFieldsWithin hLimit
  · intro records
    have hRead := records.readFields []
    rw [List.append_nil] at hRead
    rw [hRead]
    exact congrArg Except.ok (List.append_nil fields)

/-- What follows whole records consists of whole records if all of it does. -/
theorem Records.of_append {others : List Field} (hLimit : 0 < limit)
    (records : Records limit fields front) (hAll : Records limit others (front ++ rest)) :
    ∃ remaining, Records limit remaining rest := by
  have hRead := (readFields_eq_ok_iff hLimit).2 hAll
  rw [records.readFields] at hRead
  cases hRest : Pprof.readFields limit rest with
  | error e =>
    rw [hRest] at hRead
    cases hRead
  | ok remaining => exact ⟨remaining, (readFields_eq_ok_iff hLimit).1 hRest⟩

end SiteProfiler.Pprof
