import SiteProfiler.Site.CallStack

/-!
# Call stacks slot by slot

Where there is no room to allocate, a call stack is a row of slots, of which the first are in use.
It is gathered one address after the other, hashed along the slots in use, compared by them, and
copied to a field slot by slot.  What is in the other slots never shows: a row that holds a call
stack answers as the call stack does.
-/

namespace SiteProfiler

/-- Slot by slot, what is in a field after a call stack is copied into it. -/
theorem CallStack.getElem?_copyInto (stack : CallStack) (field : List Address) (place : Nat) :
    (stack.copyInto field)[place]? = field[place]?.map fun _ => stack.frames.getD place 0 := by
  by_cases hField : place < field.length
  · rw [copyInto, List.getElem?_append, List.length_take,
      List.getElem?_eq_getElem hField, Option.map_some, List.getD_eq_getElem?_getD]
    by_cases hFrame : place < stack.frames.length
    · rw [if_pos (by omega), List.getElem?_take_of_lt hField, List.getElem?_eq_getElem hFrame]
      rfl
    · rw [if_neg (by omega), List.getElem?_replicate, if_pos (by omega),
        List.getElem?_eq_none (Nat.le_of_not_lt hFrame)]
      rfl
  · have hLength := stack.length_copyInto field
    rw [List.getElem?_eq_none (by omega), List.getElem?_eq_none (Nat.le_of_not_lt hField)]
    rfl

/-- A row of slots that is filled from the front. -/
structure SlotStack where
  slots : List Address
  used : Nat
  length_eq : slots.length = maxFrames
  used_le : used ≤ maxFrames

namespace SlotStack

theorem length_zeros : (List.replicate maxFrames (0 : Address)).length = maxFrames :=
  List.length_replicate

def blank : SlotStack where
  slots := List.replicate maxFrames 0
  used := 0
  length_eq := length_zeros
  used_le := Nat.zero_le maxFrames

/-- Put an address in the next slot.  Zero is passed over, and so is any address when no slot is
left. -/
def offer (row : SlotStack) (pc : Address) : SlotStack :=
  if hRoom : pc ≠ 0 ∧ row.used < maxFrames then
    { slots := row.slots.set row.used pc
      used := row.used + 1
      length_eq := by rw [List.length_set, row.length_eq]
      used_le := hRoom.2 }
  else row

def gather (addresses : List Address) : SlotStack := addresses.foldl offer blank

/-- What is in a slot. -/
def slot (row : SlotStack) (place : Nat) : Address := row.slots.getD place 0

/-- The slots in use. -/
def frames (row : SlotStack) : List Address := row.slots.take row.used

/-- The hash of the slots in use. -/
def hash (row : SlotStack) (seed : UInt64) : UInt64 :=
  let hash := (List.range row.used).foldl
    (fun hash place => CallStack.stir hash (row.slot place)) seed
  let spread := hash + (hash <<< 3)
  spread ^^^ (spread >>> 11)

/-- Write values to the places from `start` on, of which those for `first` and the `count - 1` next
are written. -/
def writeAll (value : Nat → Address) (start first count : Nat) (memory : List Address) :
    List Address :=
  (List.range' first count).foldl (fun memory place => memory.set (start + place) (value place))
    memory

/-- Copy to a field of some memory: slots while both last, then zeros to the end of the field. -/
def copyTo (row : SlotStack) (start width : Nat) (memory : List Address) : List Address :=
  let copied := min row.used width
  writeAll (fun _ => 0) start copied (width - copied) (writeAll row.slot start 0 copied memory)

/-- The slots in use are the frames of a call stack. -/
def Holds (row : SlotStack) (stack : CallStack) : Prop := row.frames = stack.frames

/-! ## Gathering -/

theorem length_frames (row : SlotStack) : row.frames.length = row.used := by
  rw [frames, List.length_take, row.length_eq]
  exact Nat.min_eq_left row.used_le

theorem offer_of_room {row : SlotStack} {pc : Address} (hNonzero : pc ≠ 0)
    (hRoom : row.used < maxFrames) :
    (row.offer pc).frames = row.frames ++ [pc] ∧ (row.offer pc).used = row.used + 1 := by
  have hInside : row.used < row.slots.length := by rw [row.length_eq]; exact hRoom
  rw [offer, dif_pos ⟨hNonzero, hRoom⟩]
  refine ⟨?_, rfl⟩
  rw [frames, frames, List.take_add_one, List.getElem?_set_self hInside,
    List.take_set_of_le (Nat.le_refl _)]
  rfl

theorem offer_zero (row : SlotStack) : row.offer 0 = row := dif_neg fun hRoom => hRoom.1 rfl

theorem offer_of_full {row : SlotStack} (hFull : row.used = maxFrames) (pc : Address) :
    row.offer pc = row :=
  dif_neg fun hRoom => Nat.ne_of_lt hRoom.2 hFull

/-- The leading nonzero addresses are added, as many as there are slots left. -/
theorem frames_foldl_offer (addresses : List Address) (row : SlotStack) :
    (addresses.foldl offer row).frames =
      row.frames ++ (addresses.filter (· ≠ 0)).take (maxFrames - row.used) := by
  induction addresses generalizing row with
  | nil => rw [List.foldl_nil, List.filter_nil, List.take_nil, List.append_nil]
  | cons pc rest ih =>
    rw [List.foldl_cons, ih]
    by_cases hZero : pc = 0
    · rw [hZero, offer_zero, List.filter_cons_of_neg (by simp)]
    · rw [List.filter_cons_of_pos (by simpa using hZero)]
      by_cases hFull : row.used = maxFrames
      · rw [offer_of_full hFull, hFull, Nat.sub_self, List.take_zero, List.take_zero]
      · have hRoom : row.used < maxFrames := Nat.lt_of_le_of_ne row.used_le hFull
        obtain ⟨hFrames, hUsed⟩ := offer_of_room hZero hRoom
        have hLeft : maxFrames - row.used = (maxFrames - (row.used + 1)) + 1 := by omega
        rw [hFrames, hUsed, hLeft, List.take_succ_cons, List.append_assoc]
        rfl

theorem holds_gather (addresses : List Address) :
    (gather addresses).Holds (.ofAddresses addresses) :=
  frames_foldl_offer addresses blank

/-! ## Reading -/

theorem slot_eq_getD_frames (row : SlotStack) {place : Nat} (hUsed : place < row.used) :
    row.slot place = row.frames.getD place 0 := by
  rw [slot, frames, List.getD_eq_getElem?_getD, List.getD_eq_getElem?_getD,
    List.getElem?_take_of_lt hUsed]

/-- Going along the slots in use is going along the frames. -/
theorem map_slot_range (row : SlotStack) : (List.range row.used).map row.slot = row.frames := by
  apply List.ext_getElem?
  intro place
  rw [List.getElem?_map, frames, List.getElem?_take]
  by_cases hUsed : place < row.used
  · have hInside : place < row.slots.length := by
      rw [row.length_eq]
      exact Nat.lt_of_lt_of_le hUsed row.used_le
    rw [List.getElem?_range hUsed, if_pos hUsed, Option.map_some, slot,
      List.getD_eq_getElem?_getD, List.getElem?_eq_getElem hInside]
    rfl
  · rw [List.getElem?_eq_none (by simpa using hUsed), if_neg hUsed]
    rfl

theorem Holds.hash_eq {row : SlotStack} {stack : CallStack} (holds : row.Holds stack)
    (seed : UInt64) : row.hash seed = stack.mix seed := by
  have hAlong : (List.range row.used).foldl
      (fun hash place => CallStack.stir hash (row.slot place)) seed =
        stack.frames.foldl CallStack.stir seed := by
    rw [← holds, ← map_slot_range, List.foldl_map]
  simp only [hash, hAlong, CallStack.mix]

/-! ## Copying -/

theorem getElem?_writeAll (value : Nat → Address) (start first count : Nat) (memory : List Address)
    (place : Nat) :
    (writeAll value start first count memory)[place]? = memory[place]?.map fun old =>
      if start + first ≤ place ∧ place < start + first + count then value (place - start)
      else old := by
  induction count generalizing first memory with
  | zero =>
    have hNone : ¬ (start + first ≤ place ∧ place < start + first + 0) := by omega
    simp only [if_neg hNone, Option.map_id']
    rfl
  | succ count ih =>
    rw [writeAll, List.range'_succ, List.foldl_cons, ← writeAll, ih, List.getElem?_set']
    by_cases hFirst : start + first = place
    · have hBefore : ¬ (start + (first + 1) ≤ place ∧ place < start + (first + 1) + count) := by
        omega
      have hInside : start + first ≤ place ∧ place < start + first + (count + 1) := by omega
      have hValue : place - start = first := by omega
      simp only [if_pos hFirst, if_neg hBefore, if_pos hInside, hValue, Option.map_id']
      rfl
    · have hSame : (start + (first + 1) ≤ place ∧ place < start + (first + 1) + count) ↔
          start + first ≤ place ∧ place < start + first + (count + 1) := by omega
      simp only [if_neg hFirst, hSame]

/-- Copying writes the frames and then zeros, in the field and nowhere else. -/
theorem getElem?_copyTo (row : SlotStack) (start width : Nat) (memory : List Address)
    (place : Nat) :
    (row.copyTo start width memory)[place]? = memory[place]?.map fun old =>
      if start ≤ place ∧ place < start + width then row.frames.getD (place - start) 0 else old := by
  rw [copyTo, getElem?_writeAll, getElem?_writeAll, Option.map_map]
  congr 1
  funext old
  have hLength := row.length_frames
  rw [Function.comp_apply]
  by_cases hField : start ≤ place ∧ place < start + width
  · by_cases hUsed : place - start < row.used
    · rw [if_pos hField, if_neg (by omega), if_pos (by omega), slot_eq_getD_frames row hUsed]
    · rw [if_pos hField, if_pos (by omega), List.getD_eq_getElem?_getD,
        List.getElem?_eq_none (by omega)]
      rfl
  · rw [if_neg hField, if_neg (by omega), if_neg (by omega)]

/-- Of what is copied to a field of some width, no more is read than that many frames. -/
theorem copyTo_congr {row other : SlotStack} {width : Nat}
    (hFrames : row.frames.take width = other.frames.take width) (start : Nat)
    (memory : List Address) : row.copyTo start width memory = other.copyTo start width memory := by
  apply List.ext_getElem?
  intro place
  rw [getElem?_copyTo, getElem?_copyTo]
  congr 1
  funext old
  split
  next hField =>
    have hInside : place - start < width := by omega
    rw [List.getD_eq_getElem?_getD, List.getD_eq_getElem?_getD, ← List.getElem?_take_of_lt hInside,
      hFrames, List.getElem?_take_of_lt hInside]
  next => rfl

/-- Copying to a field of some memory is copying to the field by itself. -/
theorem Holds.copyTo_eq {row : SlotStack} {stack : CallStack} (holds : row.Holds stack)
    (before field after : List Address) :
    row.copyTo before.length field.length (before ++ field ++ after) =
      before ++ stack.copyInto field ++ after := by
  apply List.ext_getElem?
  intro place
  rw [getElem?_copyTo, holds, List.append_assoc, List.append_assoc, List.getElem?_append,
    List.getElem?_append, List.getElem?_append, List.getElem?_append, stack.length_copyInto]
  by_cases hBefore : place < before.length
  · have hOutside : ¬ (before.length ≤ place ∧ place < before.length + field.length) := by omega
    simp only [if_pos hBefore, if_neg hOutside, Option.map_id']
  · rw [if_neg hBefore, if_neg hBefore]
    by_cases hField : place - before.length < field.length
    · have hInside : before.length ≤ place ∧ place < before.length + field.length := by omega
      simp only [if_pos hField, if_pos hInside, stack.getElem?_copyInto]
    · have hOutside : ¬ (before.length ≤ place ∧ place < before.length + field.length) := by omega
      simp only [if_neg hField, if_neg hOutside, Option.map_id']

end SlotStack

end SiteProfiler
