import SiteProfiler.Site.Bucket

/-!
# The table of sites

The table keeps one bucket for each pair of event kind and call stack.  Buckets are appended to
an array and addressed by position.  Two families of links run through them: hash chains, whose
newest bucket comes first, and for each kind the list of its buckets in creation order.  Every
walk along links is bounded by the number of buckets, which is enough because a chain only ever
leads to older buckets and a creation-order list only to newer ones.
-/

namespace SiteProfiler

/-- Ends and length of the creation-order list of one kind. -/
structure KindList where
  head : Option BucketId
  tail : Option BucketId
  len : Nat
deriving DecidableEq, Repr

namespace KindList

def empty : KindList := ⟨none, none, 0⟩

/-- The list after a bucket is added at its end. -/
def append (list : KindList) (id : BucketId) : KindList where
  head := list.head.or (some id)
  tail := some id
  len := list.len + 1

end KindList

structure SiteTable where
  buckets : Array Bucket
  chains : Array (Option BucketId)
  memory : KindList
  blocking : KindList

namespace SiteTable

/-- An empty table with the given number of hash chains, of which there is at least one. -/
def empty (chains : Nat) : SiteTable where
  buckets := #[]
  chains := Array.replicate (max chains 1) none
  memory := .empty
  blocking := .empty

/-- An empty table with room reserved for so many buckets; no answer depends on the room. -/
def withCapacity (chains capacity : Nat) : SiteTable :=
  { empty chains with buckets := Array.emptyWithCapacity capacity }

def list (table : SiteTable) : EventKind → KindList
  | .memory => table.memory
  | .blocking => table.blocking

def setList (table : SiteTable) (kind : EventKind) (list : KindList) : SiteTable :=
  match kind with
  | .memory => { table with memory := list }
  | .blocking => { table with blocking := list }

/-- Number of buckets of one kind. -/
def len (table : SiteTable) (kind : EventKind) : Nat := (table.list kind).len

def isEmpty (table : SiteTable) : Bool := table.buckets.isEmpty

def get? (table : SiteTable) (id : BucketId) : Option Bucket := table.buckets[id]?

/-- The chain a hash is filed under. -/
def chainOf (table : SiteTable) (hash : UInt64) : Nat := hash.toNat % table.chains.size

/-- First bucket of the chain a hash is filed under. -/
def chainHead (table : SiteTable) (hash : UInt64) : Option BucketId :=
  (table.chains[table.chainOf hash]?).join

/-- The first bucket along a chain that is filed under `hash` for this kind and stack. -/
def search (table : SiteTable) (kind : EventKind) (stack : CallStack) (hash : UInt64) :
    Nat → Option BucketId → Option BucketId
  | 0, _ => none
  | _ + 1, none => none
  | steps + 1, some id =>
    match table.get? id with
    | none => none
    | some bucket =>
      if bucket.hash = hash ∧ bucket.kind = kind ∧ bucket.stack = stack then some id
      else table.search kind stack hash steps bucket.hashNext

/-- The bucket of a kind and stack, if there is one. -/
def find? (table : SiteTable) (kind : EventKind) (stack : CallStack) : Option BucketId :=
  let hash := stack.mix kind.seed
  table.search kind stack hash table.buckets.size (table.chainHead hash)

/-- Make `id` the bucket that follows `previous` in creation order. -/
def linkAfter (table : SiteTable) (previous : Option BucketId) (id : BucketId) : SiteTable :=
  match previous with
  | none => table
  | some last =>
    { table with buckets := table.buckets.modify last fun bucket =>
        { bucket with allNext := some id } }

/-- Append a new bucket, put it first in its hash chain and last in the list of its kind. -/
def create (table : SiteTable) (kind : EventKind) (stack : CallStack) : SiteTable :=
  let hash := stack.mix kind.seed
  let id := table.buckets.size
  let filed : SiteTable :=
    { table with
      buckets := table.buckets.push (.new kind stack hash (table.chainHead hash))
      chains := table.chains.setIfInBounds (table.chainOf hash) (some id) }
  let linked := filed.linkAfter (filed.list kind).tail id
  linked.setList kind ((linked.list kind).append id)

/-- The outcome of looking a site up: its bucket, whether that bucket is new, and the table. -/
structure Lookup where
  table : SiteTable
  id : BucketId
  created : Bool

/-- The bucket of a kind and stack, created on first sight. -/
def lookup (table : SiteTable) (kind : EventKind) (stack : CallStack) : Lookup :=
  match table.find? kind stack with
  | some id => ⟨table, id, false⟩
  | none => ⟨table.create kind stack, table.buckets.size, true⟩

/-- Change the counters of one bucket. -/
def update (table : SiteTable) (id : BucketId) (change : Counters → Counters) : SiteTable :=
  { table with buckets := table.buckets.modify id fun bucket =>
      { bucket with counters := change bucket.counters } }

/-- Tally an event in a bucket, if there is such a bucket and it is of the kind of the event. -/
def tally? (table : SiteTable) (id : BucketId) (event : Event) : Option SiteTable :=
  match table.get? id with
  | none => none
  | some bucket =>
    if bucket.counters.kind = event.kind then some (table.update id (Counters.tally event))
    else none

/-- Positions along a creation-order list. -/
def walk (table : SiteTable) : Nat → Option BucketId → List BucketId
  | 0, _ => []
  | _ + 1, none => []
  | steps + 1, some id =>
    match table.get? id with
    | none => []
    | some bucket => id :: table.walk steps bucket.allNext

/-- Positions of the buckets of one kind in creation order. -/
def ids (table : SiteTable) (kind : EventKind) : List BucketId :=
  table.walk table.buckets.size (table.list kind).head

/-- The buckets of one kind in creation order. -/
def iter (table : SiteTable) (kind : EventKind) : List Bucket :=
  (table.ids kind).filterMap table.get?

/-- Advance every memory bucket by one generation. -/
def rotate (table : SiteTable) : SiteTable :=
  (table.ids .memory).foldl (fun rotated id => rotated.update id Counters.rotate) table

/-- Whether no memory event has reached the cumulative generation of any bucket. -/
def pristine (table : SiteTable) : Bool :=
  (table.iter .memory).all fun bucket => bucket.counters.memory?.all MemGenerations.pristine

end SiteTable

end SiteProfiler
