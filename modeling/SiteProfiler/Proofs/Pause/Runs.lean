import Mathlib.Data.List.Basic
import SiteProfiler.Pause.Threads
import SiteProfiler.Proofs.Steps

/-!
# Runs of threads

A run is a sequence of acts: commands that are begun, moves, and wakings of sleepers for no
reason.  An act concerns one thread and leaves the others where they are.
-/

namespace SiteProfiler

inductive Act where
  | begin (t : ThreadId) (command : Command)
  | move (t woken : ThreadId)
  /-- A sleeper wakes though nothing woke it. -/
  | rouse (t : ThreadId)
deriving DecidableEq, Repr

/-- The thread that an act concerns. -/
def Act.thread : Act → ThreadId
  | begin t _ | move t _ | rouse t => t

/-- A number of moves of one thread; a freed semaphore wakes the given thread. -/
def Act.moves (t woken : ThreadId) (count : Nat) : List Act := List.replicate count (.move t woken)

/-- The command that an act begins for a thread. -/
def Act.begun? (t : ThreadId) : Act → Option Command
  | begin u command => if u = t then some command else none
  | _ => none

/-- The last command that a thread began. -/
def lastBegun (acts : List Act) (t : ThreadId) : Option Command :=
  acts.reverse.findSome? (Act.begun? t)

theorem lastBegun_concat (acts : List Act) (act : Act) (t : ThreadId) :
    lastBegun (acts ++ [act]) t = (act.begun? t).or (lastBegun acts t) := by
  simp only [lastBegun, List.reverse_append, List.reverse_singleton, List.singleton_append,
    List.findSome?_cons]
  cases act.begun? t <;> rfl

namespace Machine

/-- Take a thread off the waiting lists. -/
def rouse (machine : Machine) (t : ThreadId) : Machine :=
  { machine with queue := machine.queue.erase t, asleep := machine.asleep.erase t }

def act? (machine : Machine) : Act → Option Machine
  | .begin t command =>
    if machine.ready t && !machine.aborted then
      some (machine.setThread t (command.begin (machine.thread t)))
    else none
  | .move t woken => machine.step? t woken
  | .rouse t => some (machine.rouse t)

/-- Carry out acts in order, each of which must be allowed where it comes. -/
def run? (allowed : Machine → Act → Bool) (machine : Machine) (acts : List Act) : Option Machine :=
  acts.foldlM (fun reached act => if allowed reached act then reached.act? act else none) machine

theorem run?_cons {allowed : Machine → Act → Bool} {machine next : Machine} {act : Act}
    (hAllowed : allowed machine act = true) (hAct : machine.act? act = some next)
    (acts : List Act) : machine.run? allowed (act :: acts) = next.run? allowed acts := by
  rw [run?, List.foldlM_cons, if_pos hAllowed, hAct]
  rfl

theorem run?_concat (allowed : Machine → Act → Bool) (machine : Machine) (acts : List Act)
    (act : Act) :
    machine.run? allowed (acts ++ [act]) = (machine.run? allowed acts).bind fun reached =>
      if allowed reached act then reached.act? act else none :=
  steps_concat _ machine acts act

/-- What holds at the start and is kept by every allowed act holds wherever a run leads. -/
theorem run_induction {allowed : Machine → Act → Bool} {first : Machine}
    {motive : List Act → Machine → Prop} (hFirst : motive [] first)
    (hAct : ∀ acts machine act next, motive acts machine → allowed machine act = true →
      machine.act? act = some next → motive (acts ++ [act]) next) :
    ∀ acts machine, first.run? allowed acts = some machine → motive acts machine := by
  refine steps_induction hFirst fun acts machine act next _ hMachine hStep => ?_
  split at hStep
  next hAllowed => exact hAct acts machine act next hMachine hAllowed hStep
  next => cases hStep

/-- The threads in a waiting list. -/
def sleepers (machine : Machine) : List ThreadId := machine.queue ++ machine.asleep

/-! ## What acts do -/

theorem act?_begin {machine next : Machine} {t : ThreadId} {command : Command}
    (hAct : machine.act? (.begin t command) = some next) :
    (machine.thread t).todo = [] ∧
      next = machine.setThread t (command.begin (machine.thread t)) := by
  simp only [act?] at hAct
  split at hAct
  next hReady =>
    simp only [ready, Bool.and_eq_true, List.isEmpty_iff] at hReady
    exact ⟨hReady.1.1, (Option.some.inj hAct).symm⟩
  next => cases hAct

theorem act?_move {machine next : Machine} {t woken : ThreadId}
    (hAct : machine.act? (.move t woken) = some next) :
    ∃ move rest, (machine.thread t).todo = move :: rest ∧ t ∉ machine.sleepers ∧
      next = machine.perform t woken move rest := by
  simp only [act?, step?] at hAct
  split at hAct
  next => cases hAct
  next move rest hTodo =>
    split at hAct
    next hCan =>
      simp only [canMove, Bool.and_eq_true, Bool.not_eq_true', List.contains_eq_mem,
        decide_eq_false_iff_not] at hCan
      refine ⟨move, rest, hTodo, ?_, (Option.some.inj hAct).symm⟩
      simp only [sleepers, List.mem_append, not_or]
      exact ⟨hCan.1.2, hCan.2⟩
    next => cases hAct

/-! ## Frames -/

section Frames

variable (machine : Machine) (t woken : ThreadId)

@[simp] theorem setThread_self (thread : Thread) :
    (machine.setThread t thread).thread t = thread := by
  simp [setThread]

theorem setThread_of_ne (thread : Thread) {u : ThreadId} (hOther : u ≠ t) :
    (machine.setThread t thread).thread u = machine.thread u := by
  simp [setThread, hOther]

@[simp] theorem continueWith_self (todo : List Move) :
    (machine.continueWith t todo).thread t = { machine.thread t with todo := todo } := by
  simp [continueWith]

@[simp] theorem change_self (world : SafepointWorld) (rest : List Move) :
    (machine.change t world rest).thread t = { machine.thread t with todo := rest } := by
  simp [change]

@[simp] theorem sleep_self (move : Move) (rest : List Move) :
    (machine.sleep t move rest).thread t = { machine.thread t with todo := move :: rest } := by
  simp [sleep]

@[simp] theorem returnWith_self (answer : Answer) (rest : List Move) :
    (machine.returnWith t answer rest).thread t =
      { machine.thread t with todo := rest, answer := some answer } := by
  simp [returnWith]

@[simp] theorem world_change (world : SafepointWorld) (rest : List Move) :
    (machine.change t world rest).world = world := rfl

@[simp] theorem world_continueWith (todo : List Move) :
    (machine.continueWith t todo).world = machine.world := rfl

@[simp] theorem world_sleep (move : Move) (rest : List Move) :
    (machine.sleep t move rest).world = machine.world := rfl

@[simp] theorem held_change (world : SafepointWorld) (rest : List Move) :
    (machine.change t world rest).held = machine.held := rfl

@[simp] theorem held_continueWith (todo : List Move) :
    (machine.continueWith t todo).held = machine.held := rfl

@[simp] theorem held_sleep (move : Move) (rest : List Move) :
    (machine.sleep t move rest).held = machine.held := rfl

@[simp] theorem sleepers_mk (world : SafepointWorld) (held : Bool) (queue asleep : List ThreadId)
    (thread : ThreadId → Thread) (aborted : Bool) :
    sleepers ⟨world, held, queue, asleep, thread, aborted⟩ = queue ++ asleep := rfl

@[simp] theorem sleepers_setThread (thread : Thread) :
    (machine.setThread t thread).sleepers = machine.sleepers := rfl

@[simp] theorem sleepers_continueWith (todo : List Move) :
    (machine.continueWith t todo).sleepers = machine.sleepers := rfl

@[simp] theorem sleepers_change (world : SafepointWorld) (rest : List Move) :
    (machine.change t world rest).sleepers = machine.sleepers := rfl

@[simp] theorem sleepers_returnWith (answer : Answer) (rest : List Move) :
    (machine.returnWith t answer rest).sleepers = machine.sleepers := rfl

@[simp] theorem sleepers_sleep (move : Move) (rest : List Move) :
    (machine.sleep t move rest).sleepers = machine.sleepers ++ [t] :=
  (List.append_assoc _ _ _).symm

/-- A move leaves the other threads where they are. -/
theorem perform_of_ne (move : Move) (rest : List Move) {u : ThreadId} (hOther : u ≠ t) :
    (machine.perform t woken move rest).thread u = machine.thread u := by
  cases move <;> simp only [perform] <;> (repeat' split) <;>
    simp only [change, sleep, returnWith, continueWith, setThread, if_neg hOther]

end Frames

end Machine

end SiteProfiler
