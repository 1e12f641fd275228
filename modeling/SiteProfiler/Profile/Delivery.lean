import SiteProfiler.Pprof.OfSnapshot
import SiteProfiler.Profile.Sink

/-!
# Delivering snapshots

A snapshot is written to a sink either as JSON, piece by piece, or as a profile message, which
is put together first and then written at once.  If the sink fails, the error names the format.
-/

namespace SiteProfiler

open Pprof

inductive DeliveryError where
  | io (failure : WriteFailure)
  | json (failure : WriteFailure)
deriving DecidableEq, Repr

def DeliveryError.message : DeliveryError → String
  | io failure => "i/o error during export: " ++ failure.text
  | json failure => "failed to encode snapshot as json: " ++ failure.text

/-- Write a JSON value piece by piece. -/
def deliverJson (pieces : CompactJson.Pieces) (sink : Sink) : Except DeliveryError Unit × Sink :=
  let (outcome, fed) := sink.writePieces (pieces.map textBytes)
  (outcome.mapError .json, fed)

/-- Write a whole profile message. -/
def deliverProfile (profile : Profile) (sink : Sink) : Except DeliveryError Unit × Sink :=
  let (outcome, fed) := sink.write profile.encode
  (outcome.mapError .io, fed)

namespace MemSnapshot

def exportJson (snapshot : MemSnapshot) (sink : Sink) : Except DeliveryError Unit × Sink :=
  deliverJson snapshot.json sink

def exportPprof (snapshot : MemSnapshot) (sink : Sink) : Except DeliveryError Unit × Sink :=
  deliverProfile snapshot.profile sink

end MemSnapshot

namespace BlockSnapshot

def exportJson (snapshot : BlockSnapshot) (sink : Sink) : Except DeliveryError Unit × Sink :=
  deliverJson snapshot.json sink

def exportPprof (snapshot : BlockSnapshot) (sink : Sink) : Except DeliveryError Unit × Sink :=
  deliverProfile snapshot.profile sink

end BlockSnapshot

end SiteProfiler
