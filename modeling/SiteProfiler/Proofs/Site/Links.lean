import Mathlib.Data.List.Basic
import Mathlib.Data.List.Induction
import SiteProfiler.Site.Table

/-!
# Links of the table

The hash chains and the creation-order lists are links stored in the buckets.  `Threaded` says
where each link must lead, in terms of the array alone: a chain holds the positions of its hash
class, newest first, and a creation-order list the positions of its kind, oldest first.  Walking
the links then gives exactly these positions.
-/

namespace SiteProfiler

/-- The pair a bucket is kept for. -/
def Bucket.key (bucket : Bucket) : EventKind × CallStack := (bucket.kind, bucket.stack)

/-- A creation-order list with the given positions. -/
def KindList.ofIds (ids : List BucketId) : KindList := ⟨ids.head?, ids.getLast?, ids.length⟩

namespace SiteTable

/-- Positions of the buckets of one class, oldest first. -/
def idsWhere (table : SiteTable) (p : Bucket → Bool) : List BucketId :=
  (List.range table.buckets.size).filter fun id => (table.get? id).any p

/-- Positions of the buckets of one kind, oldest first. -/
def kindIds (table : SiteTable) (kind : EventKind) : List BucketId :=
  table.idsWhere fun bucket => bucket.kind = kind

/-- Positions of the buckets filed under one hash chain, newest first. -/
def chainIds (table : SiteTable) (chain : Nat) : List BucketId :=
  (table.idsWhere fun bucket => table.chainOf bucket.hash = chain).reverse

/-- A link leads from each position of a list to the one after it, and from the last nowhere. -/
def Follows (table : SiteTable) (next : Bucket → Option BucketId) : List BucketId → Prop
  | [] => True
  | id :: rest =>
    (table.get? id).map next = some rest.head? ∧ Follows table next rest

/-- The pairs of the buckets, oldest first. -/
def keys (table : SiteTable) : List (EventKind × CallStack) :=
  table.buckets.toList.map Bucket.key

/-- What the links and stored hashes of a table must be. -/
structure Threaded (table : SiteTable) : Prop where
  chains_pos : 0 < table.chains.size
  hashed : ∀ id bucket, table.get? id = some bucket →
    bucket.hash = bucket.stack.mix bucket.kind.seed
  tagged : ∀ id bucket, table.get? id = some bucket → bucket.counters.kind = bucket.kind
  chainHeads : ∀ chain < table.chains.size,
    table.chains[chain]? = some (table.chainIds chain).head?
  chainLinks : ∀ chain, table.Follows Bucket.hashNext (table.chainIds chain)
  listEnds : ∀ kind, table.list kind = .ofIds (table.kindIds kind)
  listLinks : ∀ kind, table.Follows Bucket.allNext (table.kindIds kind)
  distinct : table.keys.Nodup

/-! ## Positions -/

theorem isSome_get?_iff (table : SiteTable) (id : BucketId) :
    (table.get? id).isSome ↔ id < table.buckets.size := by
  simp [get?]

theorem get?_eq_none_of_le {table : SiteTable} {id : BucketId} (h : table.buckets.size ≤ id) :
    table.get? id = none := by
  simpa [get?] using h

theorem mem_idsWhere {table : SiteTable} {p : Bucket → Bool} {id : BucketId} :
    id ∈ table.idsWhere p ↔ ∃ bucket, table.get? id = some bucket ∧ p bucket = true := by
  simp only [idsWhere, List.mem_filter, List.mem_range, Option.any_eq_true]
  constructor
  · exact fun h => h.2
  · rintro ⟨bucket, hGet, hp⟩
    exact ⟨(table.isSome_get?_iff id).mp (by simp [hGet]), bucket, hGet, hp⟩

theorem nodup_idsWhere (table : SiteTable) (p : Bucket → Bool) : (table.idsWhere p).Nodup :=
  List.nodup_range.filter _

theorem length_idsWhere_le (table : SiteTable) (p : Bucket → Bool) :
    (table.idsWhere p).length ≤ table.buckets.size := by
  simpa [idsWhere] using List.length_filter_le _ (List.range table.buckets.size)

/-- The entries at the positions where `p` holds are the entries where `p` holds. -/
theorem filterMap_range_filter {α : Type} (p : α → Bool) (entries : List α) :
    ((List.range entries.length).filter fun i => entries[i]?.any p).filterMap
      (fun i => entries[i]?) = entries.filter p := by
  induction entries using List.reverseRecOn with
  | nil => rfl
  | append_singleton front last ih =>
    have hFront : ∀ i ∈ List.range front.length, (front ++ [last])[i]? = front[i]? := by
      intro i hi
      exact List.getElem?_append_left (List.mem_range.mp hi)
    rw [List.length_append, List.length_singleton, List.range_succ, List.filter_append,
      List.filterMap_append, List.filter_append,
      List.filter_congr fun i hi => by rw [hFront i hi]]
    congr 1
    · rw [← ih]
      exact List.filterMap_congr fun i hi => hFront i (List.mem_filter.mp hi).1
    · cases h : p last <;> simp [h]

/-- The buckets at the positions of a class are those of the array that belong to it. -/
theorem filterMap_get?_idsWhere (table : SiteTable) (p : Bucket → Bool) :
    (table.idsWhere p).filterMap table.get? = table.buckets.toList.filter p := by
  have hGet : table.get? = fun id => table.buckets.toList[id]? := by
    funext id
    simp [get?]
  rw [idsWhere, hGet, ← Array.length_toList]
  exact filterMap_range_filter p _

/-! ## Walking links -/

theorem Follows.congr {table other : SiteTable} {next : Bucket → Option BucketId} :
    ∀ {ids : List BucketId}, table.Follows next ids →
      (∀ id ∈ ids, (other.get? id).map next = (table.get? id).map next) →
      other.Follows next ids
  | [], _, _ => trivial
  | id :: _, ⟨hHead, hRest⟩, hSame =>
    ⟨(hSame id List.mem_cons_self).trans hHead,
      hRest.congr fun other hMem => hSame other (List.mem_cons_of_mem id hMem)⟩

/-- A walk along creation-order links visits the positions of its list. -/
theorem walk_of_follows {table : SiteTable} :
    ∀ {ids : List BucketId} {steps : Nat}, table.Follows Bucket.allNext ids →
      ids.length ≤ steps → table.walk steps ids.head? = ids
  | [], 0, _, _ => rfl
  | [], _ + 1, _, _ => rfl
  | _ :: _, 0, _, hSteps => absurd hSteps (Nat.not_succ_le_zero _)
  | id :: rest, steps + 1, ⟨hHead, hRest⟩, hSteps => by
    obtain ⟨bucket, hGet, hNext⟩ := Option.map_eq_some_iff.mp hHead
    rw [List.head?_cons, walk, hGet]
    simp only [hNext, walk_of_follows hRest (Nat.le_of_succ_le_succ hSteps)]

/-- A search along a chain finds the first position of its list that is filed as asked. -/
theorem search_of_follows {table : SiteTable} (kind : EventKind) (stack : CallStack)
    (hash : UInt64) :
    ∀ {ids : List BucketId} {steps : Nat}, table.Follows Bucket.hashNext ids →
      ids.length ≤ steps → table.search kind stack hash steps ids.head? =
        ids.find? fun id => (table.get? id).any fun bucket =>
          bucket.hash = hash ∧ bucket.kind = kind ∧ bucket.stack = stack
  | [], 0, _, _ => rfl
  | [], _ + 1, _, _ => rfl
  | _ :: _, 0, _, hSteps => absurd hSteps (Nat.not_succ_le_zero _)
  | id :: rest, steps + 1, ⟨hHead, hRest⟩, hSteps => by
    obtain ⟨bucket, hGet, hNext⟩ := Option.map_eq_some_iff.mp hHead
    have ih := search_of_follows kind stack hash hRest (Nat.le_of_succ_le_succ hSteps)
    rw [List.head?_cons, search, hGet]
    by_cases hFiled : bucket.hash = hash ∧ bucket.kind = kind ∧ bucket.stack = stack
    · simp [hGet, hFiled]
    · simp only [hNext, ih, if_neg hFiled, List.find?_cons, hGet, Option.any_some,
        decide_eq_false hFiled]

/-! ## Reading a threaded table -/

theorem keys_getElem? (table : SiteTable) (id : BucketId) :
    table.keys[id]? = (table.get? id).map Bucket.key := by
  simp [keys, get?]

theorem length_keys (table : SiteTable) : table.keys.length = table.buckets.size := by
  simp [keys]

namespace Threaded

variable {table : SiteTable} (threaded : table.Threaded)
include threaded

/-- A bucket stands where its pair was first seen. -/
theorem idxOf_key {id : BucketId} {bucket : Bucket} (hGet : table.get? id = some bucket) :
    table.keys.idxOf bucket.key = id := by
  have hKey : table.keys[id]? = some bucket.key := by rw [keys_getElem?, hGet, Option.map_some]
  obtain ⟨hLt, hEq⟩ := List.getElem?_eq_some_iff.mp hKey
  simpa only [hEq] using threaded.distinct.idxOf_getElem id hLt

theorem chainHead_eq (hash : UInt64) :
    table.chainHead hash = (table.chainIds (table.chainOf hash)).head? := by
  have hLt : table.chainOf hash < table.chains.size := Nat.mod_lt _ threaded.chains_pos
  rw [chainHead, threaded.chainHeads _ hLt, Option.join_some]

theorem ids_eq (kind : EventKind) : table.ids kind = table.kindIds kind := by
  rw [ids, threaded.listEnds kind]
  exact walk_of_follows (threaded.listLinks kind) (table.length_idsWhere_le _)

theorem iter_eq (kind : EventKind) :
    table.iter kind = table.buckets.toList.filter fun bucket => bucket.kind = kind := by
  rw [iter, threaded.ids_eq, kindIds, filterMap_get?_idsWhere]

theorem len_eq (kind : EventKind) :
    table.len kind = table.keys.countP fun key => key.1 = kind := by
  have hLen : table.len kind = (table.kindIds kind).length := by
    rw [len, threaded.listEnds kind, KindList.ofIds]
  have hIter : (table.kindIds kind).length = (table.iter kind).length := by
    rw [iter, threaded.ids_eq, List.length_filterMap_eq_countP, List.countP_eq_length.mpr]
    intro id hMem
    obtain ⟨bucket, hGet, -⟩ := mem_idsWhere.mp hMem
    rw [hGet, Option.isSome_some]
  rw [hLen, hIter, threaded.iter_eq, ← List.countP_eq_length_filter, keys, List.countP_map]
  rfl

/-- The chain a pair is filed under leads to its bucket, whatever else is filed there. -/
theorem find?_eq (kind : EventKind) (stack : CallStack) :
    table.find? kind stack =
      if (kind, stack) ∈ table.keys then some (table.keys.idxOf (kind, stack)) else none := by
  have hLength : ∀ chain, (table.chainIds chain).length ≤ table.buckets.size := by
    intro chain
    rw [chainIds, List.length_reverse]
    exact table.length_idsWhere_le _
  rw [find?, threaded.chainHead_eq, search_of_follows _ _ _ (threaded.chainLinks _) (hLength _)]
  split
  next hSeen =>
    -- The bucket of the pair lies on the chain, and no other bucket there has the same pair.
    obtain ⟨id, hLt, hKey⟩ := List.getElem_of_mem hSeen
    obtain ⟨bucket, hGet, hBucket⟩ : ∃ bucket, table.get? id = some bucket ∧
        bucket.key = (kind, stack) := by
      have hAt := table.keys_getElem? id
      rw [List.getElem?_eq_getElem hLt, hKey] at hAt
      exact Option.map_eq_some_iff.mp hAt.symm
    obtain ⟨rfl, rfl⟩ := Prod.mk.inj hBucket
    have hHash := threaded.hashed id bucket hGet
    cases hFound : (table.chainIds (table.chainOf (bucket.stack.mix bucket.kind.seed))).find?
        _ with
    | none =>
      have hMem : id ∈ table.chainIds (table.chainOf (bucket.stack.mix bucket.kind.seed)) := by
        rw [chainIds, List.mem_reverse, mem_idsWhere]
        exact ⟨bucket, hGet, by simp [hHash]⟩
      have hMiss := List.find?_eq_none.mp hFound id hMem
      simp [hGet, hHash] at hMiss
    | some other =>
      have hHit := List.find?_some hFound
      obtain ⟨found, hGetFound, hFiled⟩ := Option.any_eq_true _ _ |>.mp hHit
      have hSame : found.key = bucket.key := by
        simp only [decide_eq_true_eq] at hFiled
        exact Prod.ext hFiled.2.1 hFiled.2.2
      rw [← threaded.idxOf_key hGetFound, hSame]
      rfl
  next hUnseen =>
    rw [List.find?_eq_none]
    intro id _ hHit
    obtain ⟨bucket, hGet, hFiled⟩ := Option.any_eq_true _ _ |>.mp hHit
    apply hUnseen
    have hKey : table.keys[id]? = some bucket.key := by
      rw [keys_getElem?, hGet, Option.map_some]
    simp only [decide_eq_true_eq] at hFiled
    rw [show (kind, stack) = bucket.key from Prod.ext hFiled.2.1.symm hFiled.2.2.symm]
    exact List.mem_of_getElem? hKey

end Threaded

end SiteTable

end SiteProfiler
