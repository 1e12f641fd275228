import Mathlib.Data.List.Nodup
import SiteProfiler.Proofs.Site.Upkeep

/-!
# The table as an insertion-ordered map

Seen from outside, a table is the list of the distinct pairs it was asked for, in the order of
first sight, each with its counters.  Neither the number of chains nor the room reserved nor any
collision of hashes shows: the same calls give the same answers, the same iteration order, the
same lengths and the same counters.
-/

namespace SiteProfiler

/-- What is seen of a bucket from outside: neither its hash nor its links. -/
structure Site where
  kind : EventKind
  stack : CallStack
  counters : Counters
deriving DecidableEq, Repr

namespace Site

def key (site : Site) : EventKind × CallStack := (site.kind, site.stack)

/-- A site as it is created. -/
def fresh (kind : EventKind) (stack : CallStack) : Site := ⟨kind, stack, .zero kind⟩

def tally (event : Event) (site : Site) : Site :=
  { site with counters := site.counters.tally event }

def rotate (site : Site) : Site := { site with counters := site.counters.rotate }

end Site

def Bucket.site (bucket : Bucket) : Site := ⟨bucket.kind, bucket.stack, bucket.counters⟩

/-- A call on a table. -/
inductive TableCall where
  | lookup (kind : EventKind) (stack : CallStack)
  | tally (id : BucketId) (event : Event)
  | rotate
deriving DecidableEq, Repr

namespace TableCall

/-- The pair that a call asks for. -/
def sought? : TableCall → Option (EventKind × CallStack)
  | lookup kind stack => some (kind, stack)
  | _ => none

/-- The distinct pairs that calls ask for, in the order of first sight. -/
def firstSights (calls : List TableCall) : List (EventKind × CallStack) :=
  (calls.filterMap sought?).eraseDups

/-- The effect of a call on a plain list of sites. -/
def onSites (sites : List Site) : TableCall → List Site
  | lookup kind stack =>
    if (kind, stack) ∈ sites.map Site.key then sites else sites ++ [.fresh kind stack]
  | tally id event => sites.modify id (Site.tally event)
  | rotate => sites.map Site.rotate

/-- The sites after some calls on an empty list. -/
def sitesAfter (calls : List TableCall) : List Site := calls.foldl onSites []

end TableCall

namespace SiteTable

open TableCall

/-- Make a call: the position it answers with, and the table after it. -/
def call (table : SiteTable) : TableCall → Option BucketId × SiteTable
  | .lookup kind stack =>
    let found := table.lookup kind stack
    (some found.id, found.table)
  | .tally id event => (none, table.update id (Counters.tally event))
  | .rotate => (none, table.rotate)

/-- Make calls in order. -/
def callAll (table : SiteTable) : List TableCall → List (Option BucketId) × SiteTable
  | [] => ([], table)
  | call :: rest =>
    let first := table.call call
    let others := first.2.callAll rest
    (first.1 :: others.1, others.2)

/-- The sites of a table, in the order of creation. -/
def sites (table : SiteTable) : List Site := table.buckets.toList.map Bucket.site

/-- What is seen of a table after some calls that were answered in a certain way. -/
structure Shows (calls : List TableCall) (answers : List (Option BucketId))
    (table : SiteTable) : Prop where
  /-- A lookup answers with the place of its pair in the order of first sight. -/
  answers_eq : answers = calls.map fun call => call.sought?.map (firstSights calls).idxOf
  /-- The buckets are those of the distinct pairs, in the order of first sight. -/
  keys_eq : (sitesAfter calls).map Site.key = firstSights calls
  get?_eq : ∀ id, (table.get? id).map Bucket.site = (sitesAfter calls)[id]?
  iter_eq : ∀ kind, (table.iter kind).map Bucket.site =
    (sitesAfter calls).filter fun site => site.kind = kind
  len_eq : ∀ kind, table.len kind = (firstSights calls).countP fun key => key.1 = kind
  /-- One more lookup answers with the place of its pair, creates a bucket only if the pair is
  new, and shows every other bucket as it was. -/
  lookup_eq : ∀ kind stack,
    (table.lookup kind stack).id =
      (firstSights (calls ++ [.lookup kind stack])).idxOf (kind, stack) ∧
    ((table.lookup kind stack).created = true ↔ (kind, stack) ∉ firstSights calls) ∧
    ∀ id, ((table.lookup kind stack).table.get? id).map Bucket.site =
      if (table.lookup kind stack).created = true ∧ id = (table.lookup kind stack).id then
        some (.fresh kind stack)
      else (table.get? id).map Bucket.site

/-! ## The sites after one call -/

theorem sites_getElem? (table : SiteTable) (id : BucketId) :
    table.sites[id]? = (table.get? id).map Bucket.site := by
  simp [sites, get?]

theorem map_key_sites (table : SiteTable) : table.sites.map Site.key = table.keys := by
  rw [sites, keys, List.map_map]
  rfl

theorem sites_update (table : SiteTable) (id : BucketId) (change : Counters → Counters) :
    (table.update id change).sites = table.sites.modify id fun site =>
      { site with counters := change site.counters } := by
  apply List.ext_getElem?
  intro place
  rw [sites_getElem?, get?_update, List.getElem?_modify, sites_getElem?, Option.map_eq_map,
    Option.map_map, Option.map_map]
  congr 1
  funext bucket
  by_cases hPlace : place = id
  · simp [hPlace, Bucket.site]
  · simp [hPlace, Ne.symm hPlace]

namespace Threaded

variable {table : SiteTable} (threaded : table.Threaded)
include threaded

theorem sites_rotate : table.rotate.sites = table.sites.map Site.rotate := by
  apply List.ext_getElem?
  intro place
  rw [sites_getElem?, threaded.get?_rotate, List.getElem?_map, sites_getElem?, Option.map_map,
    Option.map_map]
  rfl

theorem sites_create (kind : EventKind) (stack : CallStack) :
    (table.create kind stack).sites = table.sites ++ [.fresh kind stack] := by
  apply List.ext_getElem?
  intro id
  have hLength : table.sites.length = table.buckets.size := by simp [sites]
  rw [List.getElem?_append, hLength, sites_getElem?]
  by_cases hLt : id < table.buckets.size
  · rw [if_pos hLt, sites_getElem?, threaded.map_get?_create kind stack (fun _ _ => rfl) hLt]
  · rw [if_neg hLt, threaded.get?_create]
    by_cases hNew : id = table.buckets.size
    · subst hNew
      simp [newBucket, Bucket.new, Bucket.site, Site.fresh]
    · rw [if_neg hNew, get?_eq_none_of_le (Nat.le_of_not_lt hLt),
        List.getElem?_eq_none (by simp; omega)]
      rfl

theorem lookup_of_mem {kind : EventKind} {stack : CallStack} (hSeen : (kind, stack) ∈ table.keys) :
    table.lookup kind stack = ⟨table, table.keys.idxOf (kind, stack), false⟩ := by
  rw [SiteTable.lookup, threaded.find?_eq, if_pos hSeen]

theorem lookup_of_not_mem {kind : EventKind} {stack : CallStack}
    (hUnseen : (kind, stack) ∉ table.keys) :
    table.lookup kind stack = ⟨table.create kind stack, table.buckets.size, true⟩ := by
  rw [SiteTable.lookup, threaded.find?_eq, if_neg hUnseen]

end Threaded

/-! ## The sites after many calls -/

theorem callAll_append (table : SiteTable) (calls more : List TableCall) :
    table.callAll (calls ++ more) =
      ((table.callAll calls).1 ++ ((table.callAll calls).2.callAll more).1,
        ((table.callAll calls).2.callAll more).2) := by
  induction calls generalizing table with
  | nil => rfl
  | cons call rest ih =>
    simp only [List.cons_append, callAll, ih]

theorem Threaded.call {table : SiteTable} (threaded : table.Threaded) (call : TableCall) :
    (table.call call).2.Threaded := by
  cases call with
  | lookup kind stack => exact threaded.lookup kind stack
  | tally id event => exact threaded.tally id event
  | rotate => exact threaded.rotate

theorem Threaded.sites_call {table : SiteTable} (threaded : table.Threaded) (call : TableCall) :
    (table.call call).2.sites = onSites table.sites call := by
  cases call with
  | lookup kind stack =>
    simp only [SiteTable.call, onSites, map_key_sites]
    split
    next hSeen => rw [threaded.lookup_of_mem hSeen]
    next hUnseen => rw [threaded.lookup_of_not_mem hUnseen, threaded.sites_create]
  | tally id event => exact table.sites_update id (Counters.tally event)
  | rotate => exact threaded.sites_rotate

theorem Threaded.callAll {table : SiteTable} (threaded : table.Threaded)
    (calls : List TableCall) :
    (table.callAll calls).2.Threaded ∧
      (table.callAll calls).2.sites = calls.foldl onSites table.sites := by
  induction calls generalizing table with
  | nil => exact ⟨threaded, rfl⟩
  | cons call rest ih =>
    have hRest := ih (threaded.call call)
    rw [threaded.sites_call] at hRest
    exact hRest

end SiteTable

/-- An element is kept at its first occurrence. -/
theorem eraseDups_concat {α : Type} [BEq α] [LawfulBEq α] (front : List α) (last : α) :
    (front ++ [last]).eraseDups =
      if last ∈ front.eraseDups then front.eraseDups else front.eraseDups ++ [last] := by
  rw [List.eraseDups_append]
  by_cases hMem : last ∈ front
  · rw [if_pos (List.mem_eraseDups.mpr hMem)]
    simp [List.removeAll, hMem]
  · rw [if_neg (mt List.mem_eraseDups.mp hMem)]
    simp [List.removeAll, hMem, List.eraseDups_cons]

theorem nodup_eraseDups {α : Type} [BEq α] [LawfulBEq α] (elements : List α) :
    elements.eraseDups.Nodup := by
  induction elements using List.reverseRecOn with
  | nil => exact List.nodup_nil
  | append_singleton front last ih =>
    rw [eraseDups_concat]
    split
    · exact ih
    next hNew => simpa using ih.concat hNew

theorem eraseDups_of_nodup {α : Type} [BEq α] [LawfulBEq α] {elements : List α}
    (hNodup : elements.Nodup) : elements.eraseDups = elements := by
  induction elements using List.reverseRecOn with
  | nil => rfl
  | append_singleton front last ih =>
    obtain ⟨hFront, -, hApart⟩ := List.nodup_append.mp hNodup
    have hUnseen : last ∉ front := fun hMem => hApart last hMem last List.mem_cons_self rfl
    rw [eraseDups_concat, ih hFront, if_neg hUnseen]

namespace TableCall

theorem firstSights_concat_some {calls : List TableCall} {call : TableCall}
    {key : EventKind × CallStack} (hSought : call.sought? = some key) :
    firstSights (calls ++ [call]) =
      if key ∈ firstSights calls then firstSights calls else firstSights calls ++ [key] := by
  rw [firstSights, List.filterMap_append, List.filterMap_cons_some hSought, List.filterMap_nil,
    eraseDups_concat]
  rfl

theorem firstSights_concat_none {calls : List TableCall} {call : TableCall}
    (hSought : call.sought? = none) : firstSights (calls ++ [call]) = firstSights calls := by
  rw [firstSights, List.filterMap_append, List.filterMap_cons_none hSought, List.filterMap_nil,
    List.append_nil]
  rfl

theorem firstSights_prefix (calls more : List TableCall) :
    firstSights calls <+: firstSights (calls ++ more) := by
  rw [firstSights, firstSights, List.filterMap_append, List.eraseDups_append]
  exact List.prefix_append _ _

theorem map_key_sitesAfter (calls : List TableCall) :
    (sitesAfter calls).map Site.key = firstSights calls := by
  induction calls using List.reverseRecOn with
  | nil => rfl
  | append_singleton calls call ih =>
    rw [sitesAfter, List.foldl_concat, ← sitesAfter]
    cases call with
    | lookup kind stack =>
      rw [firstSights_concat_some rfl, onSites, ih, apply_ite (List.map Site.key), List.map_append,
        ih]
      rfl
    | tally id event =>
      rw [firstSights_concat_none rfl, ← ih, onSites]
      apply List.ext_getElem?
      intro place
      rw [List.getElem?_map, List.getElem?_map, List.getElem?_modify, Option.map_eq_map,
        Option.map_map]
      congr 1
      funext site
      rw [Function.comp_apply]
      split <;> rfl
    | rotate =>
      rw [firstSights_concat_none rfl, ← ih, onSites, List.map_map]
      rfl

end TableCall

namespace SiteTable

open TableCall

/-- A lookup answers with the place of its pair, old or new. -/
theorem Threaded.lookup_id {table : SiteTable} (threaded : table.Threaded)
    {calls : List TableCall} (hKeys : table.keys = firstSights calls) (kind : EventKind)
    (stack : CallStack) :
    (table.lookup kind stack).id =
      (firstSights (calls ++ [.lookup kind stack])).idxOf (kind, stack) := by
  rw [firstSights_concat_some rfl]
  by_cases hSeen : (kind, stack) ∈ table.keys
  · rw [threaded.lookup_of_mem hSeen, if_pos (hKeys ▸ hSeen), hKeys]
  · rw [threaded.lookup_of_not_mem hSeen, if_neg (hKeys ▸ hSeen),
      List.idxOf_append_of_notMem (hKeys ▸ hSeen), ← hKeys, length_keys]
    simp

/-- A lookup shows the other buckets as they were. -/
theorem Threaded.lookup_sites {table : SiteTable} (threaded : table.Threaded) (kind : EventKind)
    (stack : CallStack) (id : BucketId) :
    ((table.lookup kind stack).table.get? id).map Bucket.site =
      if (table.lookup kind stack).created = true ∧ id = (table.lookup kind stack).id then
        some (.fresh kind stack)
      else (table.get? id).map Bucket.site := by
  by_cases hSeen : (kind, stack) ∈ table.keys
  · simp [threaded.lookup_of_mem hSeen]
  · rw [threaded.lookup_of_not_mem hSeen, ← sites_getElem?, threaded.sites_create,
      ← sites_getElem?]
    have hLength : table.sites.length = table.buckets.size := by simp [sites]
    rcases Nat.lt_trichotomy id table.buckets.size with hLt | hEq | hGt
    · rw [List.getElem?_append_left (by omega), if_neg fun h => Nat.ne_of_lt hLt h.2]
    · simp [hEq, ← hLength]
    · rw [List.getElem?_eq_none (by simp; omega), if_neg fun h => Nat.ne_of_gt hGt h.2,
        List.getElem?_eq_none (by omega)]

/-- What calls on a new table leave: links that hold, and the sites of the plain list. -/
theorem callAll_withCapacity (chains capacity : Nat) (calls : List TableCall) :
    ((withCapacity chains capacity).callAll calls).2.Threaded ∧
      ((withCapacity chains capacity).callAll calls).2.sites = sitesAfter calls ∧
      ((withCapacity chains capacity).callAll calls).2.keys = firstSights calls := by
  obtain ⟨hThreaded, hSites⟩ := (threaded_withCapacity chains capacity).callAll calls
  have hAfter : ((withCapacity chains capacity).callAll calls).2.sites = sitesAfter calls := hSites
  refine ⟨hThreaded, hAfter, ?_⟩
  rw [← map_key_sites, hAfter, map_key_sitesAfter]

theorem answers_callAll (chains capacity : Nat) (calls : List TableCall) :
    ((withCapacity chains capacity).callAll calls).1 =
      calls.map fun call => call.sought?.map (firstSights calls).idxOf := by
  induction calls using List.reverseRecOn with
  | nil => rfl
  | append_singleton calls call ih =>
    obtain ⟨threaded, -, hKeys⟩ := callAll_withCapacity chains capacity calls
    have hOld : ∀ earlier ∈ calls,
        earlier.sought?.map (firstSights (calls ++ [call])).idxOf =
          earlier.sought?.map (firstSights calls).idxOf := by
      intro earlier hMem
      obtain ⟨extra, hExtra⟩ := firstSights_prefix calls [call]
      cases hSought : earlier.sought? with
      | none => rfl
      | some key =>
        have hSeen : key ∈ firstSights calls :=
          List.mem_eraseDups.mpr (List.mem_filterMap.mpr ⟨earlier, hMem, hSought⟩)
        rw [← hExtra, Option.map_some, Option.map_some, List.idxOf_append_of_mem hSeen]
    rw [callAll_append, ih, List.map_append, List.map_congr_left hOld]
    cases call with
    | lookup kind stack =>
      simp only [SiteTable.callAll, SiteTable.call, List.map_cons, List.map_nil, sought?,
        Option.map_some, threaded.lookup_id hKeys]
    | tally id event => rfl
    | rotate => rfl

/-- A new table shows its calls, whatever the number of its chains and the room reserved. -/
theorem shows_callAll (chains capacity : Nat) (calls : List TableCall) :
    Shows calls ((withCapacity chains capacity).callAll calls).1
      ((withCapacity chains capacity).callAll calls).2 := by
  obtain ⟨threaded, hSites, hKeys⟩ := callAll_withCapacity chains capacity calls
  constructor
  · exact answers_callAll chains capacity calls
  · exact map_key_sitesAfter calls
  · intro id
    rw [← sites_getElem?, hSites]
  · intro kind
    rw [threaded.iter_eq, ← hSites, sites, List.filter_map]
    rfl
  · intro kind
    rw [threaded.len_eq, hKeys]
  · intro kind stack
    refine ⟨threaded.lookup_id hKeys kind stack, ?_, threaded.lookup_sites kind stack⟩
    rw [← hKeys]
    by_cases hSeen : (kind, stack) ∈ ((withCapacity chains capacity).callAll calls).2.keys
    · simp [threaded.lookup_of_mem hSeen, hSeen]
    · simp [threaded.lookup_of_not_mem hSeen, hSeen]

/-- A table is an insertion-ordered map: it shows its calls, and a table with other chains and
other room that is given the same calls cannot be told apart from it. -/
theorem insertion_ordered (chains capacity : Nat) (calls : List TableCall) :
    let ran := (withCapacity chains capacity).callAll calls
    Shows calls ran.1 ran.2 ∧
      ∀ otherChains otherCapacity,
        let other := (withCapacity otherChains otherCapacity).callAll calls
        other.1 = ran.1 ∧
          ∀ kind, (other.2.iter kind).map Bucket.site = (ran.2.iter kind).map Bucket.site ∧
            other.2.len kind = ran.2.len kind ∧
            ∀ id, (other.2.get? id).map Bucket.site = (ran.2.get? id).map Bucket.site := by
  intro ran
  have shown : Shows calls ran.1 ran.2 := shows_callAll chains capacity calls
  refine ⟨shown, fun otherChains otherCapacity => ?_⟩
  intro other
  have otherShown : Shows calls other.1 other.2 := shows_callAll otherChains otherCapacity calls
  refine ⟨otherShown.answers_eq.trans shown.answers_eq.symm, fun kind => ⟨?_, ?_, fun id => ?_⟩⟩
  · exact (otherShown.iter_eq kind).trans (shown.iter_eq kind).symm
  · exact (otherShown.len_eq kind).trans (shown.len_eq kind).symm
  · exact (otherShown.get?_eq id).trans (shown.get?_eq id).symm

end SiteTable

end SiteProfiler
