import SiteProfiler.Text

/-!
# Call stacks

A call stack names the site of an event by its return addresses, innermost first.  Zero ends
the stack field of an exported record, so a call stack never holds it; both this and the bound
on the number of frames are part of the type.  Two call stacks are equal exactly when their
frames are.
-/

namespace SiteProfiler

/-- A raw code address.  It is compared, hashed and printed, never followed. -/
abbrev Address := UInt64

def addressText (address : Address) : String := hexText address.toNat

/-- Number of frames a call stack can hold, and the width of the stack field of a record. -/
def maxFrames : Nat := 32

structure CallStack where
  frames : List Address
  length_le : frames.length ≤ maxFrames
  nonzero : ∀ pc ∈ frames, pc ≠ 0
deriving DecidableEq, Repr

namespace CallStack

@[ext] theorem ext {a b : CallStack} (hFrames : a.frames = b.frames) : a = b := by
  cases a; cases b; simp_all

/-- The call stack with no frames. -/
def empty : CallStack where
  frames := []
  length_le := Nat.zero_le maxFrames
  nonzero := fun _ hMem => nomatch hMem

instance : Inhabited CallStack := ⟨empty⟩

/-- The leading nonzero addresses, as many as fit. -/
def ofAddresses (addresses : List Address) : CallStack where
  frames := (addresses.filter (· ≠ 0)).take maxFrames
  length_le := List.length_take_le maxFrames _
  nonzero := by
    intro pc hMem
    simpa using (List.mem_filter.mp (List.mem_of_mem_take hMem)).2

/-- Number of frames. -/
def depth (stack : CallStack) : Nat := stack.frames.length

/-- The frames written over a field: as many as the field has room for, then zeros to its end. -/
def copyInto (stack : CallStack) (field : List Address) : List Address :=
  stack.frames.take field.length ++ List.replicate (field.length - stack.frames.length) 0

theorem length_copyInto (stack : CallStack) (field : List Address) :
    (stack.copyInto field).length = field.length := by
  rw [copyInto, List.length_append, List.length_take, List.length_replicate]
  omega

/-- One round of the hash: add the address, then stir. -/
def stir (hash pc : UInt64) : UInt64 :=
  let sum := hash + pc
  let shifted := sum + (sum <<< 10)
  shifted ^^^ (shifted >>> 6)

/-- A 64-bit hash of the frames in order, started from `seed`.  Sums wrap around. -/
def mix (stack : CallStack) (seed : UInt64) : UInt64 :=
  let hash := stack.frames.foldl stir seed
  let spread := hash + (hash <<< 3)
  spread ^^^ (spread >>> 11)

/-- The frames on one line, as in `[0xa, 0xb]`. -/
def lineText (stack : CallStack) : String :=
  "[" ++ ", ".intercalate (stack.frames.map addressText) ++ "]"

/-- The frames one to a line, each indented and followed by a comma. -/
def blockText (stack : CallStack) : String :=
  if stack.frames.isEmpty then "[]"
  else "[\n" ++ String.join (stack.frames.map fun pc => "    " ++ addressText pc ++ ",\n") ++ "]"

end CallStack

end SiteProfiler
