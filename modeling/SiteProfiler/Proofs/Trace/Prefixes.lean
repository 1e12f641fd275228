import SiteProfiler.Pause.Script
import SiteProfiler.Proofs.Trace.Bracketing

/-!
# Dumps into short buffers

A dump has an ideal text: the trace of the caller and, on request, those of the other tasks.  It is
written in many pieces, by the dump and by its formatter, which may each find the buffer full.  What
is in the buffer in the end is the longest prefix of the ideal text that fits, and the storage after
it is as it was.
-/

namespace SiteProfiler

namespace TraceBuffer

/-! ## Taking as much as fits -/

/-- As much of some bytes as fits has been appended.  Whether the buffer has seen that some of them
were dropped is left open: a writer may stop by itself once the buffer is full. -/
structure Takes (out : TraceBuffer) (bytes : List UInt8) (next : TraceBuffer) : Prop where
  front_eq : next.front = out.front ++ bytes.take out.back.length
  back_eq : next.back = out.back.drop bytes.length

theorem takes_push (out : TraceBuffer) (bytes : List UInt8) : out.Takes bytes (out.push bytes) :=
  ⟨rfl, rfl⟩

theorem takes_nil (out : TraceBuffer) : out.Takes [] out :=
  ⟨by rw [List.take_nil, List.append_nil], rfl⟩

/-- A full buffer takes any bytes by staying as it is. -/
theorem takes_of_isFull {out : TraceBuffer} (hFull : out.isFull = true) (bytes : List UInt8) :
    out.Takes bytes out := by
  have hBack : out.back = [] := List.isEmpty_iff.mp hFull
  constructor
  · rw [hBack, List.length_nil, List.take_zero, List.append_nil]
  · rw [hBack, List.drop_nil]

/-- What is taken in two pieces is taken at once. -/
theorem Takes.append {out middle next : TraceBuffer} {bytes more : List UInt8}
    (first : out.Takes bytes middle) (second : middle.Takes more next) :
    out.Takes (bytes ++ more) next where
  front_eq := by
    rw [second.front_eq, first.front_eq, first.back_eq, List.append_assoc, List.take_append,
      List.length_drop]
  back_eq := by
    rw [second.back_eq, first.back_eq, List.drop_drop, List.length_append]

/-- Frames are written until the buffer is full; no more of them would fit. -/
theorem takes_pushFrames (line : Address → String) (frames : List Address) (out : TraceBuffer) :
    out.Takes (frames.flatMap fun pc => textBytes (line pc)) (out.pushFrames line frames) := by
  induction frames generalizing out with
  | nil => exact out.takes_nil
  | cons pc rest ih =>
    rw [pushFrames, List.flatMap_cons]
    split
    next hFull => exact takes_of_isFull hFull _
    next => exact (out.takes_push (textBytes (line pc))).append (ih _)

/-- What a buffer over some storage has taken: a prefix of the bytes, and after it the storage. -/
theorem Takes.ofStorage {storage bytes : List UInt8} {next : TraceBuffer}
    (takes : (TraceBuffer.ofStorage storage).Takes bytes next) :
    next.front = bytes.take storage.length ∧
      next.storage = bytes.take storage.length ++ storage.drop bytes.length ∧
      next.written = min storage.length bytes.length := by
  have hFront : next.front = bytes.take storage.length := takes.front_eq
  have hBack : next.back = storage.drop bytes.length := takes.back_eq
  refine ⟨hFront, ?_, ?_⟩
  · rw [TraceBuffer.storage, hFront, hBack]
  · rw [written, hFront, List.length_take]

end TraceBuffer

/-- A text for each address. -/
def CallStack.linesBytes (line : Address → String) (stack : CallStack) : List UInt8 :=
  stack.frames.flatMap fun pc => textBytes (line pc)

namespace Formatter

/-- Appends as much as fits of a text that depends on the stack alone, whatever is in the buffer. -/
def Appends (formatter : Formatter) (text : CallStack → List UInt8) : Prop :=
  ∀ stack out, ∃ next, formatter stack out = (.returned (), next) ∧ out.Takes (text stack) next

theorem appends_raw : raw.Appends (CallStack.linesBytes rawLine) := fun stack out =>
  ⟨_, rfl, out.takes_pushFrames rawLine stack.frames⟩

theorem appends_symbols : symbols.Appends (CallStack.linesBytes unresolvedLine) :=
  fun stack out => ⟨_, rfl, out.takes_pushFrames unresolvedLine stack.frames⟩

end Formatter

/-! ## The ideal text -/

/-- The line above the frames of a task. -/
def TaskInfo.headerBytes (task : TaskInfo) : List UInt8 :=
  textBytes ("task " ++ natText task.id ++ " [" ++ task.status.text ++ "]:\n")

/-- The trace of a task, given what a formatter writes for a stack. -/
def traceBytes (text : CallStack → List UInt8) (task : TaskInfo) (stack : CallStack) :
    List UInt8 :=
  task.headerBytes ++ text stack

/-- The traces of the tasks other than the caller's, in the order of the visit, each after a blank
line. -/
def otherTraces (text : CallStack → List UInt8) (current : TaskId) (tasks : List TaskSnapshot) :
    List UInt8 :=
  (tasks.filter fun task => task.info.id ≠ current).flatMap fun task =>
    textBytes "\n" ++ traceBytes text task.info task.stack

/-- What a dump would write with room enough. -/
def idealDump (text : CallStack → List UInt8) (current : TaskInfo) (stack : CallStack)
    (tasks : List TaskSnapshot) : List UInt8 :=
  traceBytes text current stack ++ otherTraces text current.id tasks

namespace Script

variable {script : Script}

/-- The worker that a script names after so many others. -/
def workerAt (script : Script) (named : Nat) : WorkerId :=
  script.workers[named]?.getD (script.workers.getLast?.getD 0)

section

variable (hReturns : ∀ call, script.fails call = false)
include hReturns

theorem answer_of_returns {α : Type} (call : WorldCall) (value : α) :
    script.answer call value = .returned value := by
  rw [answer, hReturns, if_neg Bool.false_ne_true]

theorem release_of_returns (task : TaskId) (named : Nat) (out : TraceBuffer)
    (observed : List Observed) :
    script.world.release task ⟨named, true, out, observed⟩ = (.returned (), ⟨named, false, out,
      observed ++ [.call (.setCollectionHold task false) true, .call .start false,
        .line (.resumed task)]⟩) := by
  simp [World.release, Stage.bind_apply, Stage.call_apply, Stage.note_apply, Stage.setHeld,
    Stage.ofOutcome, Scene.next, world, answer_of_returns hReturns]

end

end Script

namespace Dumper

variable {σ : Type} {dumper : Dumper σ} {text : CallStack → List UInt8}
  (appends : dumper.formatter.Appends text)

open Stage World

section
include appends

theorem writeTask_of_appends (task : TaskInfo) (stack : CallStack) (scene : Scene σ) :
    ∃ next, dumper.writeTask task stack scene = (.returned (), { scene with out := next }) ∧
      scene.out.Takes (traceBytes text task stack) next := by
  obtain ⟨next, hWrite, takes⟩ := appends stack (scene.out.pushHeader task)
  refine ⟨next, ?_, (scene.out.takes_push task.headerBytes).append takes⟩
  simp only [writeTask, bind_apply, write, ofOutcome, hWrite]

theorem writeOthers_of_appends (current : TaskId) (tasks : List TaskSnapshot) (scene : Scene σ) :
    ∃ next, dumper.writeOthers current tasks scene = (.returned (), { scene with out := next }) ∧
      scene.out.Takes (otherTraces text current tasks) next := by
  induction tasks generalizing scene with
  | nil => exact ⟨scene.out, rfl, scene.out.takes_nil⟩
  | cons task rest ih =>
    by_cases hOther : task.info.id ≠ current
    · obtain ⟨out, hWrite, first⟩ := writeTask_of_appends appends task.info task.stack
        { scene with out := scene.out.pushText "\n" }
      obtain ⟨next, hRest, others⟩ := ih { scene with out := out }
      refine ⟨next, ?_, ?_⟩
      · simp only [writeOthers, if_pos hOther, bind_apply, write, ofOutcome, hWrite, hRest]
      · rw [otherTraces, List.filter_cons_of_pos (by simpa using hOther), List.flatMap_cons]
        exact ((scene.out.takes_push (textBytes "\n")).append first).append others
    · obtain ⟨next, hRest, others⟩ := ih scene
      refine ⟨next, ?_, ?_⟩
      · simpa only [writeOthers, if_neg hOther, pure_bind] using hRest
      · rwa [otherTraces, List.filter_cons_of_neg (by simpa using hOther)]

/-- The traces of all tasks, if the visit returns. -/
theorem writeAll_of_appends (current : TaskInfo) (stack : CallStack) {scene : Scene σ}
    {tasks : List TaskSnapshot} {visited : σ}
    (hVisit : dumper.world.visitTasks scene.world = (tasks, .returned (), visited)) :
    ∃ next, dumper.writeAll current stack scene = (.returned next.written,
        scene.next visited scene.held next [.call .visitTasks scene.held]) ∧
      scene.out.Takes (idealDump text current stack tasks) next := by
  obtain ⟨out, hWrite, first⟩ := writeTask_of_appends appends current stack scene
  let visiting := scene.next visited scene.held out [.call .visitTasks scene.held]
  obtain ⟨next, hOthers, others⟩ := writeOthers_of_appends appends current.id tasks visiting
  have hVisitOthers : dumper.visitOthers current.id { scene with out := out } =
      (dumper.writeOthers current.id tasks).bind
        (fun _ after => (ofOutcome (.returned ()), after)) visiting := by
    rw [visitOthers, hVisit]
    rfl
  refine ⟨next, ?_, first.append others⟩
  simp only [writeAll, bind_apply, hWrite, hVisitOthers, Stage.bind, hOthers, ofOutcome]
  rfl

end

/-! ## Worlds whose calls return -/

section

variable {script : Script} (hReturns : ∀ call, script.fails call = false)
include hReturns

/-- The pause is there at once if nobody holds it. -/
theorem enter_of_returns {dumper : Dumper Nat} (hWorld : dumper.world = script.world)
    (named : Nat) (out : TraceBuffer) :
    dumper.enter ⟨named, false, out, []⟩ = (.returned (script.current, script.workerAt named),
      ⟨named + 1, true, out, enterEvents script.current.id false⟩) := by
  simp only [enter, acquire, takeSemaphore, bind_apply, call_apply, note_apply, isHeld, setHeld,
    ofOutcome, Scene.next, hWorld, Script.world, Script.answer_of_returns hReturns,
    Bool.false_eq_true, if_false]
  rfl

/-- With all its calls returning, the semaphore free for a pause and its caller left on its worker,
a dump takes its ideal text. -/
theorem dump_takes {dumper : Dumper Nat} (hWorld : dumper.world = script.world)
    (appends : dumper.formatter.Appends text) {allTasks held : Bool} {named : Nat}
    (hFree : allTasks = true → held = false)
    (hStays : allTasks = true → script.workerAt named = script.workerAt (named + 1))
    (storage : List UInt8) :
    let ended := dumper.dump storage allTasks named held
    ended.1 = .returned ended.2.out.written ∧
      (TraceBuffer.ofStorage storage).Takes
        (idealDump text script.current (dumper.collector.capture dumper.walk)
          (if allTasks then script.tasks else [])) ended.2.out := by
  by_cases hStorage : storage = []
  · subst hStorage
    exact ⟨rfl, TraceBuffer.takes_of_isFull rfl _⟩
  rw [dumper.dump_of_ne_nil hStorage]
  cases allTasks with
  | false =>
    obtain ⟨next, hWrite, takes⟩ := writeTask_of_appends appends script.current
      (dumper.collector.capture dumper.walk)
      ⟨named, held, .ofStorage storage, [.call .currentTask held]⟩
    simp only [dumpInto, Bool.false_eq_true, if_false, bind_apply, call_apply, hWorld, Script.world,
      Script.answer_of_returns hReturns, ofOutcome, Scene.next, List.nil_append, hWrite]
    exact ⟨rfl, takes.append next.takes_nil⟩
  | true =>
    obtain rfl : held = false := hFree rfl
    have hEnter := enter_of_returns hReturns hWorld named (.ofStorage storage)
    have hAnswer : dumper.world.currentWorker (named + 1) =
        (.returned (script.workerAt (named + 1)), named + 2) := by
      simp only [hWorld, Script.world, Script.answer_of_returns hReturns]
      rfl
    have hCheck : checkWorker (script.workerAt named) (script.workerAt (named + 1)) = .ok () :=
      if_pos (hStays rfl)
    have hVisit : dumper.world.visitTasks (named + 2) =
        (script.tasks, .returned (), named + 2) := by
      simp only [hWorld, Script.world, hReturns, Bool.false_eq_true, if_false]
    let paused : Scene Nat :=
      ⟨named + 1, true, .ofStorage storage, enterEvents script.current.id false⟩
    let asked := paused.next (named + 2) true paused.out [.call .currentWorker true]
    have hAsked : call .currentWorker dumper.world.currentWorker paused =
        (.returned (script.workerAt (named + 1)), asked) := by
      simp only [call_apply, paused, hAnswer, ofOutcome]
      rfl
    have hTasks : dumper.world.visitTasks asked.world =
        (script.tasks, .returned (), named + 2) := hVisit
    obtain ⟨next, hWrite, takes⟩ := writeAll_of_appends appends script.current
      (dumper.collector.capture dumper.walk) hTasks
    have hWork : dumper.work script.current (script.workerAt named) paused =
        (.finished next.written, asked.next (named + 2) true next [.call .visitTasks true]) := by
      simp only [work, hAsked, hCheck, hWrite]
      rfl
    have hDropped := Script.release_of_returns hReturns script.current.id (named + 2) next
      (asked.observed ++ [.call .visitTasks true])
    have hEnded : dumper.dumpInto true ⟨named, false, .ofStorage storage, []⟩ =
        dumper.proceed script.current (script.workerAt named) paused := by
      rw [dumpInto_true, bind_apply, hEnter]
    simp only [hEnded, proceed_eq, hWork, hWorld, Scene.next, hDropped]
    exact ⟨rfl, takes⟩

end

/-- What a dump leaves in its storage is the longest prefix of the ideal text that fits, followed by
the storage as it was, and the number of bytes in it is returned; so a dump into less storage is a
prefix of one into more.  This holds for any formatter that appends as much as fits of a text for
each stack, as the formatter of raw addresses does and that of unresolved symbols, in any scripted
world whose calls return and whose pause leaves the caller on its worker. -/
theorem dump_fills_with_prefix :
    Formatter.raw.Appends (CallStack.linesBytes rawLine) ∧
    Formatter.symbols.Appends (CallStack.linesBytes unresolvedLine) ∧
    ∀ (script : Script) (formatter : Formatter) (text : CallStack → List UInt8)
      (collector : Collector) (walk : List Address) (allTasks held : Bool) (named : Nat),
      formatter.Appends text →
      (∀ call, script.fails call = false) →
      (allTasks = true → held = false) →
      (allTasks = true → script.workerAt named = script.workerAt (named + 1)) →
      let dumper : Dumper Nat := ⟨script.world, formatter, collector, walk⟩
      let ideal := idealDump text script.current (collector.capture walk)
        (if allTasks then script.tasks else [])
      (∀ storage,
        let ended := dumper.dump storage allTasks named held
        ended.1 = .returned (min storage.length ideal.length) ∧
          ended.2.out.front = ideal.take storage.length ∧
          ended.2.out.storage = ideal.take storage.length ++ storage.drop ideal.length) ∧
      ∀ storage larger : List UInt8, storage.length ≤ larger.length →
        (dumper.dump storage allTasks named held).2.out.front <+:
          (dumper.dump larger allTasks named held).2.out.front := by
  refine ⟨Formatter.appends_raw, Formatter.appends_symbols, ?_⟩
  intro script formatter text collector walk allTasks held named appends hReturns hFree hStays
    dumper ideal
  have hDump (storage : List UInt8) :
      let ended := dumper.dump storage allTasks named held
      ended.1 = .returned (min storage.length ideal.length) ∧
        ended.2.out.front = ideal.take storage.length ∧
        ended.2.out.storage = ideal.take storage.length ++ storage.drop ideal.length := by
    obtain ⟨hReturned, takes⟩ :=
      dump_takes hReturns (rfl : dumper.world = script.world) appends hFree hStays storage
    obtain ⟨hFront, hStorage, hWritten⟩ := takes.ofStorage
    exact ⟨hReturned.trans (congrArg _ hWritten), hFront, hStorage⟩
  refine ⟨hDump, fun storage larger hLarger => ?_⟩
  rw [(hDump storage).2.1, (hDump larger).2.1]
  exact List.take_prefix_take_left hLarger

/-- The caller and one other task; the third worker named would be another one. -/
def twoTasks : Script where
  current := ⟨1, .running⟩
  tasks := [⟨⟨1, .runnable⟩, .empty⟩, ⟨⟨2, .waiting⟩, .ofAddresses [0xab]⟩]
  workers := [4, 4, 5]
  fails := fun _ => false

/-- Storage that ends inside the address of the other task. -/
theorem dump_fills_with_prefix_cut :
    let dumper : Dumper Nat := ⟨twoTasks.world, .raw, ⟨maxFrames, 0⟩, [9]⟩
    let ended := dumper.dump (List.replicate 46 46) true 0 false
    Formatter.raw.Appends (CallStack.linesBytes rawLine) ∧
      (∀ call, twoTasks.fails call = false) ∧ twoTasks.workerAt 0 = twoTasks.workerAt 1 ∧
      ended.1 = .returned 46 ∧
      ended.2.out.front =
        textBytes "task 1 [running]:\n\t0x9\n\ntask 2 [waiting]:\n\t0xa" := by
  intro dumper ended
  have hReturns : ∀ call, twoTasks.fails call = false := fun _ => rfl
  have hStays : twoTasks.workerAt 0 = twoTasks.workerAt 1 := rfl
  have hIdeal : idealDump (CallStack.linesBytes rawLine) twoTasks.current
      (Collector.capture ⟨maxFrames, 0⟩ [9]) twoTasks.tasks =
        textBytes "task 1 [running]:\n\t0x9\n\ntask 2 [waiting]:\n\t0xab\n" := by
    decide +kernel
  obtain ⟨appends, -, hFills⟩ := dump_fills_with_prefix
  obtain ⟨hWritten, hFront, -⟩ := (hFills twoTasks .raw _ ⟨maxFrames, 0⟩ [9] true false 0 appends
    hReturns (fun _ => rfl) (fun _ => hStays)).1 (List.replicate 46 46)
  simp only [if_true, hIdeal, List.length_replicate] at hWritten hFront
  refine ⟨appends, hReturns, hStays, ?_, ?_⟩
  · rw [hWritten]
    decide +kernel
  · rw [hFront]
    decide +kernel

end Dumper

end SiteProfiler
