import Mathlib.Order.Bounds.Basic
import SiteProfiler.Proofs.Site.Upkeep

/-!
# Neighbours along the links

In a threaded table a hash link leads to the newest older bucket of the same chain, and a
creation-order link to the oldest newer bucket of the same kind.  So walks along them stay inside
the array, go steadily back or forth in it, and end.
-/

namespace SiteProfiler

/-- The newest of some positions, if there are any. -/
def IsNewest (ids : Set BucketId) : Option BucketId → Prop
  | none => ids = ∅
  | some id => IsGreatest ids id

/-- The oldest of some positions, if there are any. -/
def IsOldest (ids : Set BucketId) : Option BucketId → Prop
  | none => ids = ∅
  | some id => IsLeast ids id

namespace SiteTable

/-- Positions of the buckets filed under a hash chain. -/
def onChain (table : SiteTable) (chain : Nat) : Set BucketId :=
  { id | ∃ bucket, table.get? id = some bucket ∧ table.chainOf bucket.hash = chain }

/-- Positions of the buckets of a kind. -/
def ofKind (table : SiteTable) (kind : EventKind) : Set BucketId :=
  { id | ∃ bucket, table.get? id = some bucket ∧ bucket.kind = kind }

/-- A loop along links visits some positions, each of them inside the array, and then ends. -/
inductive Visits (table : SiteTable) (next : Bucket → Option BucketId) :
    Option BucketId → List BucketId → Prop
  | done : Visits table next none []
  | visit {id : BucketId} {bucket : Bucket} {ids : List BucketId}
      (hGet : table.get? id = some bucket) (hRest : Visits table next (next bucket) ids) :
      Visits table next (some id) (id :: ids)

/-- Where the links of a table lead, and how the loops along them run. -/
structure Linked (table : SiteTable) : Prop where
  hashed : ∀ id bucket, table.get? id = some bucket →
    bucket.hash = bucket.stack.mix bucket.kind.seed
  tagged : ∀ id bucket, table.get? id = some bucket → bucket.counters.kind = bucket.kind
  hashNext : ∀ id bucket, table.get? id = some bucket →
    IsNewest { other | other ∈ table.onChain (table.chainOf bucket.hash) ∧ other < id }
      bucket.hashNext
  chainHead : ∀ chain < table.chains.size,
    ∃ head, table.chains[chain]? = some head ∧ IsNewest (table.onChain chain) head
  allNext : ∀ id bucket, table.get? id = some bucket →
    IsOldest { other | other ∈ table.ofKind bucket.kind ∧ id < other } bucket.allNext
  listHead : ∀ kind, IsOldest (table.ofKind kind) (table.list kind).head
  listTail : ∀ kind, IsNewest (table.ofKind kind) (table.list kind).tail
  listLen : ∀ kind,
    (table.list kind).len = table.buckets.toList.countP fun bucket => bucket.kind = kind
  /-- Every hash has a chain. -/
  chainOf_lt : ∀ hash, table.chainOf hash < table.chains.size
  /-- A search goes back along its chain, and ends at the first bucket filed as asked or at the
  end of the chain; the number of buckets is a sufficient bound of its steps. -/
  chainLoop : ∀ hash, ∃ ids, table.Visits Bucket.hashNext (table.chainHead hash) ids ∧
    ids.Pairwise (· > ·) ∧ ∀ kind stack steps, table.buckets.size ≤ steps →
      table.search kind stack hash steps (table.chainHead hash) =
        ids.find? fun id => (table.get? id).any fun bucket =>
          bucket.hash = hash ∧ bucket.kind = kind ∧ bucket.stack = stack
  /-- An iteration or a rotation goes forth along the list of a kind to its end. -/
  listLoop : ∀ kind, table.Visits Bucket.allNext (table.list kind).head (table.ids kind) ∧
    (table.ids kind).Pairwise (· < ·)

/-! ## Ends of sorted lists -/

theorem eq_or_before {before : BucketId → BucketId → Prop} {first id : BucketId}
    {rest : List BucketId} (hSorted : (first :: rest).Pairwise before) (hMem : id ∈ first :: rest) :
    first = id ∨ before first id :=
  (List.mem_cons.mp hMem).imp Eq.symm (List.rel_of_pairwise_cons hSorted)

theorem isNewest_head? {ids : List BucketId} (hSorted : ids.Pairwise (· > ·)) :
    IsNewest { id | id ∈ ids } ids.head? := by
  cases ids with
  | nil => exact Set.eq_empty_of_forall_notMem fun _ hMem => List.not_mem_nil hMem
  | cons first rest =>
    exact ⟨List.mem_cons_self, fun id hMem =>
      (eq_or_before hSorted hMem).elim (fun hSame => Nat.le_of_eq hSame.symm) Nat.le_of_lt⟩

theorem isOldest_head? {ids : List BucketId} (hSorted : ids.Pairwise (· < ·)) :
    IsOldest { id | id ∈ ids } ids.head? := by
  cases ids with
  | nil => exact Set.eq_empty_of_forall_notMem fun _ hMem => List.not_mem_nil hMem
  | cons first rest =>
    exact ⟨List.mem_cons_self, fun id hMem =>
      (eq_or_before hSorted hMem).elim Nat.le_of_eq Nat.le_of_lt⟩

theorem isNewest_getLast? {ids : List BucketId} (hSorted : ids.Pairwise (· < ·)) :
    IsNewest { id | id ∈ ids } ids.getLast? := by
  have hReverse := isNewest_head? (List.pairwise_reverse.mpr hSorted)
  rw [List.head?_reverse] at hReverse
  exact (Set.ext fun id => List.mem_reverse (x := id) : { id | id ∈ ids.reverse } = _) ▸ hReverse

theorem pairwise_idsWhere (table : SiteTable) (p : Bucket → Bool) :
    (table.idsWhere p).Pairwise (· < ·) :=
  List.pairwise_lt_range.filter _

theorem pairwise_chainIds (table : SiteTable) (chain : Nat) :
    (table.chainIds chain).Pairwise (· > ·) :=
  List.pairwise_reverse.mpr (table.pairwise_idsWhere _)

theorem mem_kindIds (table : SiteTable) (kind : EventKind) (id : BucketId) :
    id ∈ table.kindIds kind ↔ id ∈ table.ofKind kind := by
  simp only [kindIds, mem_idsWhere, decide_eq_true_eq]
  rfl

theorem mem_chainIds (table : SiteTable) (chain : Nat) (id : BucketId) :
    id ∈ table.chainIds chain ↔ id ∈ table.onChain chain := by
  simp only [chainIds, List.mem_reverse, mem_idsWhere, decide_eq_true_eq]
  rfl

/-! ## Links of sorted lists -/

theorem Follows.visits {table : SiteTable} {next : Bucket → Option BucketId} :
    ∀ {ids : List BucketId}, table.Follows next ids → table.Visits next ids.head? ids
  | [], _ => .done
  | _ :: _, ⟨hHead, hRest⟩ => by
    obtain ⟨bucket, hGet, hNext⟩ := Option.map_eq_some_iff.mp hHead
    exact .visit hGet (hNext ▸ hRest.visits)

/-- The link of a position leads to the first of those that come after it in the order. -/
theorem Follows.exists_later {table : SiteTable} {next : Bucket → Option BucketId}
    {before : BucketId → BucketId → Prop}
    (hAsymm : ∀ id other, before id other → ¬ before other id) :
    ∀ {ids : List BucketId}, table.Follows next ids → ids.Pairwise before →
      ∀ id ∈ ids, ∃ later : List BucketId,
        (table.get? id).map next = some later.head? ∧ later.Pairwise before ∧
          ∀ other, other ∈ later ↔ other ∈ ids ∧ before id other
  | first :: rest, ⟨hHead, hRest⟩, hSorted, id, hMem => by
    obtain ⟨hFirst, hSortedRest⟩ := List.pairwise_cons.mp hSorted
    rcases List.mem_cons.mp hMem with rfl | hMemRest
    · refine ⟨rest, hHead, hSortedRest, fun other => ⟨fun hOther => ?_, fun hOther => ?_⟩⟩
      · exact ⟨List.mem_cons_of_mem id hOther, hFirst other hOther⟩
      · refine (List.mem_cons.mp hOther.1).resolve_left ?_
        rintro rfl
        exact hAsymm other other hOther.2 hOther.2
    · obtain ⟨later, hLink, hSortedLater, hLater⟩ :=
        hRest.exists_later hAsymm hSortedRest id hMemRest
      refine ⟨later, hLink, hSortedLater, fun other => (hLater other).trans ?_⟩
      refine ⟨fun hOther => ⟨List.mem_cons_of_mem first hOther.1, hOther.2⟩, fun hOther => ?_⟩
      refine ⟨(List.mem_cons.mp hOther.1).resolve_left ?_, hOther.2⟩
      rintro rfl
      exact hAsymm id other hOther.2 (hFirst id hMemRest)

namespace Threaded

variable {table : SiteTable} (threaded : table.Threaded)
include threaded

theorem isNewest_hashNext {id : BucketId} {bucket : Bucket} (hGet : table.get? id = some bucket) :
    IsNewest { other | other ∈ table.onChain (table.chainOf bucket.hash) ∧ other < id }
      bucket.hashNext := by
  have hMem : id ∈ table.chainIds (table.chainOf bucket.hash) :=
    (table.mem_chainIds _ id).mpr ⟨bucket, hGet, rfl⟩
  obtain ⟨later, hLink, hSorted, hLater⟩ := (threaded.chainLinks _).exists_later
    (fun _ _ => Nat.lt_asymm) (table.pairwise_chainIds _) id hMem
  rw [hGet, Option.map_some, Option.some.injEq] at hLink
  rw [hLink, ← Set.ext fun other => (hLater other).trans
    (and_congr_left fun _ => table.mem_chainIds _ other)]
  exact isNewest_head? hSorted

theorem isOldest_allNext {id : BucketId} {bucket : Bucket} (hGet : table.get? id = some bucket) :
    IsOldest { other | other ∈ table.ofKind bucket.kind ∧ id < other } bucket.allNext := by
  have hMem : id ∈ table.kindIds bucket.kind :=
    (table.mem_kindIds _ id).mpr ⟨bucket, hGet, rfl⟩
  obtain ⟨later, hLink, hSorted, hLater⟩ := (threaded.listLinks _).exists_later
    (fun _ _ => Nat.lt_asymm) (table.pairwise_idsWhere _) id hMem
  rw [hGet, Option.map_some, Option.some.injEq] at hLink
  rw [hLink, ← Set.ext fun other => (hLater other).trans
    (and_congr_left fun _ => table.mem_kindIds _ other)]
  exact isOldest_head? hSorted

/-- The order of the positions alone decides all links of a threaded table. -/
theorem linked : table.Linked where
  hashed := threaded.hashed
  tagged := threaded.tagged
  hashNext := fun _ _ hGet => threaded.isNewest_hashNext hGet
  chainHead := by
    intro chain hLt
    refine ⟨_, threaded.chainHeads chain hLt, ?_⟩
    rw [← Set.ext (table.mem_chainIds chain)]
    exact isNewest_head? (table.pairwise_chainIds chain)
  allNext := fun _ _ hGet => threaded.isOldest_allNext hGet
  listHead := by
    intro kind
    rw [threaded.listEnds kind, ← Set.ext (table.mem_kindIds kind)]
    exact isOldest_head? (table.pairwise_idsWhere _)
  listTail := by
    intro kind
    rw [threaded.listEnds kind, ← Set.ext (table.mem_kindIds kind)]
    exact isNewest_getLast? (table.pairwise_idsWhere _)
  listLen := by
    intro kind
    have hLen := threaded.len_eq kind
    rw [len, keys, List.countP_map] at hLen
    exact hLen
  chainOf_lt := fun hash => Nat.mod_lt _ threaded.chains_pos
  chainLoop := by
    intro hash
    have hLinks := threaded.chainLinks (table.chainOf hash)
    rw [threaded.chainHead_eq]
    refine ⟨_, hLinks.visits, table.pairwise_chainIds _, fun kind stack steps hSteps => ?_⟩
    refine search_of_follows kind stack hash hLinks (Nat.le_trans ?_ hSteps)
    rw [chainIds, List.length_reverse]
    exact table.length_idsWhere_le _
  listLoop := by
    intro kind
    rw [threaded.ids_eq, threaded.listEnds]
    exact ⟨(threaded.listLinks kind).visits, table.pairwise_idsWhere _⟩

end Threaded

end SiteTable

end SiteProfiler
