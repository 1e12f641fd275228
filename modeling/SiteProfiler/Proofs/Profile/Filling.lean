import SiteProfiler.Profile.Record

/-!
# Filled records

Filling a record overwrites the whole of it: nothing of its old contents is left, and the stack
read back from it is the stack it was filled from.
-/

namespace SiteProfiler

namespace StackField

theorem slots_fill (field : StackField) (stack : CallStack) :
    (field.fill stack).slots =
      stack.frames ++ List.replicate (maxFrames - stack.frames.length) 0 := by
  simp only [fill, CallStack.copyInto, field.length_eq, List.take_of_length_le stack.length_le]

theorem fill_eq (field : StackField) (stack : CallStack) : field.fill stack = zero.fill stack := by
  apply StackField.ext
  rw [slots_fill, slots_fill]

theorem stack_fill (field : StackField) (stack : CallStack) :
    (field.fill stack).stack = stack.frames := by
  have hFrames : ∀ pc ∈ stack.frames, decide (pc ≠ 0) = true :=
    fun pc hMem => decide_eq_true (stack.nonzero pc hMem)
  rw [StackField.stack, slots_fill, List.takeWhile_append_of_pos hFrames,
    List.takeWhile_replicate]
  simp

end StackField

theorem MemRecord.fill_eq (record : MemRecord) (gens : MemGenerations) (stack : CallStack) :
    record.fill gens stack = MemRecord.zero.fill gens stack := by
  rw [fill, fill, record.field.fill_eq, MemRecord.zero.field.fill_eq]

theorem BlockRecord.fill_eq (record : BlockRecord) (tally : BlockTally) (stack : CallStack) :
    record.fill tally stack = BlockRecord.zero.fill tally stack := by
  rw [fill, fill, record.field.fill_eq, BlockRecord.zero.field.fill_eq]

theorem StackRecord.fill_eq (record : StackRecord) (stack : CallStack) :
    record.fill stack = StackRecord.zero.fill stack := by
  rw [fill, fill, record.field.fill_eq, StackRecord.zero.field.fill_eq]

theorem MemRecord.stack_fill (record : MemRecord) (gens : MemGenerations) (stack : CallStack) :
    (record.fill gens stack).stack = stack.frames :=
  record.field.stack_fill stack

theorem BlockRecord.stack_fill (record : BlockRecord) (tally : BlockTally) (stack : CallStack) :
    (record.fill tally stack).stack = stack.frames :=
  record.field.stack_fill stack

theorem StackRecord.stack_fill (record : StackRecord) (stack : CallStack) :
    (record.fill stack).stack = stack.frames :=
  record.field.stack_fill stack

end SiteProfiler
