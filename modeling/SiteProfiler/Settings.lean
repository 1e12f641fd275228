import SiteProfiler.Site.CallStack

/-!
# Settings and stack capture

Settings are plain values; only the adjustments that are documented to do so keep a value in
range.  A collector applies the depth and skip settings to a walk of the calling thread's stack.
-/

namespace SiteProfiler

structure Settings where
  bucketCapacity : Nat := 1024
  hashChains : Nat := 16381
  maxStackDepth : Nat := maxFrames
  skipFrames : Nat := 0
  startEnabled : Bool := true
deriving DecidableEq, Repr

/-- A stack depth that a call stack can hold and that captures at least one frame. -/
def clampDepth (depth : Nat) : Nat := max 1 (min depth maxFrames)

namespace Settings

/-- Record nothing until recording is switched on. -/
def disabled (settings : Settings) : Settings := { settings with startEnabled := false }

def withMaxStackDepth (settings : Settings) (depth : Nat) : Settings :=
  { settings with maxStackDepth := clampDepth depth }

def withHashChains (settings : Settings) (chains : Nat) : Settings :=
  { settings with hashChains := max chains 1 }

end Settings

/-- One step in building settings. -/
inductive Adjustment where
  | replace (settings : Settings)
  | bucketCapacity (capacity : Nat)
  | hashChains (chains : Nat)
  | maxStackDepth (depth : Nat)
  | skipFrames (frames : Nat)
  | startEnabled (enabled : Bool)
deriving DecidableEq, Repr

namespace Settings

def adjust (settings : Settings) : Adjustment → Settings
  | .replace other => other
  | .bucketCapacity capacity => { settings with bucketCapacity := capacity }
  | .hashChains chains => settings.withHashChains chains
  | .maxStackDepth depth => settings.withMaxStackDepth depth
  | .skipFrames frames => { settings with skipFrames := frames }
  | .startEnabled enabled => { settings with startEnabled := enabled }

/-- Default settings after a sequence of adjustments. -/
def build (adjustments : List Adjustment) : Settings := adjustments.foldl adjust {}

end Settings

/-- Turns a walk of the calling thread's stack into a call stack. -/
structure Collector where
  maxDepth : Nat
  skipFrames : Nat
deriving DecidableEq, Repr

namespace Collector

def ofSettings (settings : Settings) : Collector where
  maxDepth := clampDepth settings.maxStackDepth
  skipFrames := settings.skipFrames

/-- From the return addresses of a walk, innermost first: null addresses do not count, the
innermost `skipFrames` are dropped, and at most `maxDepth` are kept. -/
def capture (collector : Collector) (returnAddresses : List Address) : CallStack :=
  .ofAddresses <|
    ((returnAddresses.filter (· ≠ 0)).drop collector.skipFrames).take collector.maxDepth

end Collector

end SiteProfiler
