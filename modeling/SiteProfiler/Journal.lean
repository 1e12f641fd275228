import SiteProfiler.Site.Bucket
import SiteProfiler.Pause.Task

/-!
# The journal

What the profiler and the pause tell about themselves.  A line is a value; its text is its
level, its message and its fields in order.
-/

namespace SiteProfiler

/-- The three profiles that are copied into a caller's buffer. -/
inductive ProfileName where
  | memory
  | block
  | thread
deriving DecidableEq, Repr

def ProfileName.text : ProfileName → String
  | memory => "memory"
  | block => "block"
  | thread => "thread"

inductive JournalLine where
  | bucketCreated (kind : EventKind) (bucket : BucketId) (depth : Nat)
  | reentrantDropped (kind : EventKind)
  | rotated (cycle buckets : Nat)
  | flushed
  | truncated (profile : ProfileName) (needed capacity : Nat)
  | paused (task : TaskId)
  | resumed (task : TaskId)
  | pauseBroken (moved : Rescheduled)
deriving DecidableEq, Repr

namespace JournalLine

def level : JournalLine → String
  | bucketCreated .. | reentrantDropped _ => "TRACE"
  | rotated .. | flushed | truncated .. | paused _ | resumed _ => "DEBUG"
  | pauseBroken _ => "ERROR"

def message : JournalLine → String
  | bucketCreated .. => "created bucket"
  | reentrantDropped _ => "dropped reentrant profiling event"
  | rotated .. => "rotated memory profile generations"
  | flushed => "no cumulative memory data yet, flushed pending generations"
  | truncated profile .. => profile.text ++ " profile truncated"
  | paused _ => "world paused"
  | resumed _ => "world resumed"
  | pauseBroken _ => "runtime invariant broken during world pause"

def fields : JournalLine → List (String × String)
  | bucketCreated kind bucket depth =>
    [("kind", kind.name), ("bucket", natText bucket), ("depth", natText depth)]
  | reentrantDropped kind => [("kind", kind.name)]
  | rotated cycle buckets => [("cycle", natText cycle), ("buckets", natText buckets)]
  | flushed => []
  | truncated _ needed capacity => [("needed", natText needed), ("capacity", natText capacity)]
  | paused task | resumed task => [("task", natText task)]
  | pauseBroken moved => [("err", moved.message)]

def text (line : JournalLine) : String :=
  line.level ++ " " ++ line.message ++
    String.join (line.fields.map fun field => " " ++ field.1 ++ "=" ++ field.2)

end JournalLine

end SiteProfiler
