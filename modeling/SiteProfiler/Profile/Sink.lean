/-!
# Sinks

A sink takes bytes until it has no room left.  From then on it either reports an error or takes
nothing at all; a whole text is written by offering what is left again until all of it is taken
or the sink fails.
-/

namespace SiteProfiler

/-- How a full sink answers an offer. -/
inductive WhenFull where
  /-- It reports an error with this text. -/
  | fails (reason : String)
  /-- It takes no bytes and reports no error. -/
  | stalls
deriving DecidableEq, Repr

/-- Why a text was not written to its end. -/
inductive WriteFailure where
  | refused (reason : String)
  | stalled
deriving DecidableEq, Repr

def WriteFailure.text : WriteFailure → String
  | refused reason => reason
  | stalled => "failed to write whole buffer"

/-- A sink for at most `limit` bytes, or for any number if there is no limit; `refusals` counts
the offers it met when full. -/
structure Sink where
  limit : Option Nat
  whenFull : WhenFull
  taken : Array UInt8
  refusals : Nat
deriving DecidableEq, Repr

namespace Sink

def unlimited : Sink := ⟨none, .stalls, #[], 0⟩

def limited (limit : Nat) (whenFull : WhenFull) : Sink := ⟨some limit, whenFull, #[], 0⟩

/-- How many of `wanted` bytes the sink has room for. -/
def room (sink : Sink) (wanted : Nat) : Nat :=
  match sink.limit with
  | none => wanted
  | some limit => min wanted (limit - sink.taken.size)

/-- Write all the bytes: what there is room for is taken, and the rest, if any, is offered once
more to the then full sink. -/
def write (sink : Sink) (bytes : List UInt8) : Except WriteFailure Unit × Sink :=
  let taking := sink.room bytes.length
  let fed := { sink with taken := sink.taken ++ bytes.take taking }
  if taking = bytes.length then (.ok (), fed)
  else
    let failure := match fed.whenFull with
      | .fails reason => .refused reason
      | .stalls => .stalled
    (.error failure, { fed with refusals := fed.refusals + 1 })

/-- Write pieces in order up to the first failure. -/
def writePieces (sink : Sink) : List (List UInt8) → Except WriteFailure Unit × Sink
  | [] => (.ok (), sink)
  | piece :: rest =>
    match sink.write piece with
    | (.ok (), fed) => fed.writePieces rest
    | (.error failure, fed) => (.error failure, fed)

end Sink

end SiteProfiler
