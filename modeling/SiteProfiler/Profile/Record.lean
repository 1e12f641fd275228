import SiteProfiler.Site.CallStack
import SiteProfiler.Site.Tally

/-!
# Profile records

A record is one line of a profile: exported numbers and a stack field of fixed width, whose
first zero slot ends the stack.  Filling a record overwrites all of it.
-/

namespace SiteProfiler

/-- The raw stack slots of a record. -/
structure StackField where
  slots : List Address
  length_eq : slots.length = maxFrames
deriving DecidableEq, Repr

namespace StackField

@[ext] theorem ext {a b : StackField} (hSlots : a.slots = b.slots) : a = b := by
  cases a; cases b; simp_all

def zero : StackField where
  slots := List.replicate maxFrames 0
  length_eq := List.length_replicate

instance : Inhabited StackField := ⟨zero⟩

/-- The slots given, cut or padded with zeros to the width of the field. -/
def ofSlots (slots : List Address) : StackField where
  slots := (slots ++ List.replicate maxFrames 0).take maxFrames
  length_eq := by simp [List.length_take]

/-- The field after a call stack is copied into it. -/
def fill (field : StackField) (stack : CallStack) : StackField where
  slots := stack.copyInto field.slots
  length_eq := by rw [CallStack.length_copyInto, field.length_eq]

/-- The slots up to the last that is not zero. -/
def trimmed (field : StackField) : List Address :=
  (field.slots.reverse.dropWhile (· = 0)).reverse

/-- The addresses before the first zero slot. -/
def stack (field : StackField) : List Address := field.slots.takeWhile (· ≠ 0)

end StackField

/-- Cumulative allocation figures of one site. -/
structure MemRecord where
  allocBytes : Int64
  allocObjects : Int64
  freeBytes : Int64
  freeObjects : Int64
  field : StackField
deriving DecidableEq

namespace MemRecord

def zero : MemRecord := ⟨0, 0, 0, 0, .zero⟩

instance : Inhabited MemRecord := ⟨zero⟩

/-- The record of a site; only the cumulative generation is exported. -/
def fill (record : MemRecord) (gens : MemGenerations) (stack : CallStack) : MemRecord where
  allocBytes := signedOfCounter gens.cumulative.allocBytes
  allocObjects := signedOfCounter gens.cumulative.allocs
  freeBytes := signedOfCounter gens.cumulative.freeBytes
  freeObjects := signedOfCounter gens.cumulative.frees
  field := record.field.fill stack

def stack (record : MemRecord) : List Address := record.field.stack

/-- Bytes still live at the site. -/
def inUseBytes (record : MemRecord) : Int64 := signedDifference record.allocBytes record.freeBytes

/-- Objects still live at the site. -/
def inUseObjects (record : MemRecord) : Int64 :=
  signedDifference record.allocObjects record.freeObjects

end MemRecord

/-- Blocking figures of one site. -/
structure BlockRecord where
  count : Int64
  cycles : Int64
  field : StackField
deriving DecidableEq

namespace BlockRecord

def zero : BlockRecord := ⟨0, 0, .zero⟩

instance : Inhabited BlockRecord := ⟨zero⟩

def fill (record : BlockRecord) (tally : BlockTally) (stack : CallStack) : BlockRecord where
  count := signedOfCounter tally.count
  cycles := signedOfCounter tally.cycles
  field := record.field.fill stack

def stack (record : BlockRecord) : List Address := record.field.stack

end BlockRecord

/-- The creation stack of one worker. -/
structure StackRecord where
  field : StackField
deriving DecidableEq

namespace StackRecord

def zero : StackRecord := ⟨.zero⟩

instance : Inhabited StackRecord := ⟨zero⟩

def fill (record : StackRecord) (stack : CallStack) : StackRecord := ⟨record.field.fill stack⟩

def stack (record : StackRecord) : List Address := record.field.stack

end StackRecord

end SiteProfiler
