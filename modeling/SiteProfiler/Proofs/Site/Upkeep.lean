import SiteProfiler.Proofs.Site.Links

/-!
# Upkeep of the links

Every operation keeps a table threaded: creating a bucket puts it at the front of its chain and at
the end of the list of its kind, while counting and rotating leave all links alone.
-/

namespace SiteProfiler

namespace SiteTable

/-! ## Creating a bucket -/

@[simp] theorem buckets_setList (table : SiteTable) (kind : EventKind) (list : KindList) :
    (table.setList kind list).buckets = table.buckets := by
  cases kind <;> rfl

@[simp] theorem chains_setList (table : SiteTable) (kind : EventKind) (list : KindList) :
    (table.setList kind list).chains = table.chains := by
  cases kind <;> rfl

theorem list_setList (table : SiteTable) (kind other : EventKind) (list : KindList) :
    (table.setList kind list).list other = if other = kind then list else table.list other := by
  cases kind <;> cases other <;> rfl

@[simp] theorem chains_linkAfter (table : SiteTable) (previous : Option BucketId) (id : BucketId) :
    (table.linkAfter previous id).chains = table.chains := by
  cases previous <;> rfl

@[simp] theorem list_linkAfter (table : SiteTable) (previous : Option BucketId) (id : BucketId)
    (kind : EventKind) : (table.linkAfter previous id).list kind = table.list kind := by
  cases previous <;> cases kind <;> rfl

theorem get?_linkAfter (table : SiteTable) (previous : Option BucketId) (id place : BucketId) :
    (table.linkAfter previous id).get? place = (table.get? place).map fun bucket =>
      if previous = some place then { bucket with allNext := some id } else bucket := by
  cases previous with
  | none => simp [linkAfter]
  | some last =>
    by_cases hLast : last = place
    · simp [linkAfter, get?, Array.getElem?_modify, hLast]
    · simp [linkAfter, get?, Array.getElem?_modify, hLast]

/-- The bucket that `create` appends. -/
def newBucket (table : SiteTable) (kind : EventKind) (stack : CallStack) : Bucket :=
  .new kind stack (stack.mix kind.seed) (table.chainHead (stack.mix kind.seed))

theorem hash_newBucket (table : SiteTable) (kind : EventKind) (stack : CallStack) :
    (table.newBucket kind stack).hash = stack.mix kind.seed := rfl

theorem chains_create (table : SiteTable) (kind : EventKind) (stack : CallStack) :
    (table.create kind stack).chains = table.chains.setIfInBounds
      (table.chainOf (stack.mix kind.seed)) (some table.buckets.size) := by
  simp only [create, chains_setList, chains_linkAfter]

theorem chainOf_create (table : SiteTable) (kind : EventKind) (stack : CallStack)
    (hash : UInt64) : (table.create kind stack).chainOf hash = table.chainOf hash := by
  rw [chainOf, chains_create, Array.size_setIfInBounds, chainOf]

theorem list_create (table : SiteTable) (kind other : EventKind) (stack : CallStack) :
    (table.create kind stack).list other =
      if other = kind then (table.list kind).append table.buckets.size else table.list other := by
  simp only [create, list_setList, list_linkAfter]
  rfl

theorem size_create (table : SiteTable) (kind : EventKind) (stack : CallStack) :
    (table.create kind stack).buckets.size = table.buckets.size + 1 := by
  simp only [create, buckets_setList, linkAfter]
  split <;> simp

namespace Threaded

variable {table : SiteTable} (threaded : table.Threaded)
include threaded

theorem tail_mem {kind : EventKind} {last : BucketId} (hTail : (table.list kind).tail = some last) :
    last ∈ table.kindIds kind := by
  rw [threaded.listEnds kind] at hTail
  exact List.mem_of_getLast? hTail

theorem get?_create (kind : EventKind) (stack : CallStack) (id : BucketId) :
    (table.create kind stack).get? id =
      if id = table.buckets.size then some (table.newBucket kind stack)
      else (table.get? id).map fun bucket =>
        if (table.list kind).tail = some id then
          { bucket with allNext := some table.buckets.size }
        else bucket := by
  -- The tail is an old position, so linking it leaves the new bucket alone.
  have hTail : (table.list kind).tail ≠ some table.buckets.size := by
    intro hTail
    obtain ⟨bucket, hGet, -⟩ := mem_idsWhere.mp (threaded.tail_mem hTail)
    rw [get?_eq_none_of_le (Nat.le_refl _)] at hGet
    cases hGet
  simp only [create, get?, buckets_setList]
  rw [← get?, get?_linkAfter, get?, Array.getElem?_push]
  by_cases hNew : id = table.buckets.size
  · subst hNew
    rw [if_pos rfl, if_pos rfl, Option.map_some]
    exact congrArg some (if_neg hTail)
  · rw [if_neg hNew, if_neg hNew]
    rfl

theorem keys_create (kind : EventKind) (stack : CallStack) :
    (table.create kind stack).keys = table.keys ++ [(kind, stack)] := by
  apply List.ext_getElem?
  intro id
  rw [keys_getElem?, threaded.get?_create, List.getElem?_append, length_keys, keys_getElem?]
  rcases Nat.lt_trichotomy id table.buckets.size with hLt | hEq | hGt
  · rw [if_neg (Nat.ne_of_lt hLt), if_pos hLt, Option.map_map]
    congr 1
    funext bucket
    simp only [Function.comp_apply, Bucket.key]
    split <;> rfl
  · subst hEq
    simp [newBucket, Bucket.new, Bucket.key]
  · rw [if_neg (Nat.ne_of_gt hGt), if_neg (Nat.not_lt_of_gt hGt),
      get?_eq_none_of_le (Nat.le_of_lt hGt), List.getElem?_eq_none (by simp; omega)]
    rfl

/-- A class that does not look at the creation-order link gains at most the new position. -/
theorem idsWhere_create (kind : EventKind) (stack : CallStack) {p : Bucket → Bool}
    (hLink : ∀ bucket next, p { bucket with allNext := next } = p bucket) :
    (table.create kind stack).idsWhere p =
      table.idsWhere p ++ if p (table.newBucket kind stack) then [table.buckets.size] else [] := by
  rw [idsWhere, size_create, List.range_succ, List.filter_append, idsWhere]
  congr 1
  · apply List.filter_congr
    intro id hMem
    have hLt : id ≠ table.buckets.size := Nat.ne_of_lt (List.mem_range.mp hMem)
    rw [threaded.get?_create, if_neg hLt]
    cases table.get? id with
    | none => rfl
    | some bucket =>
      rw [Option.map_some, Option.any_some, Option.any_some]
      split
      · exact hLink bucket _
      · rfl
  · rw [List.filter_singleton, threaded.get?_create, if_pos rfl, Option.any_some,
      Bool.cond_eq_ite]

end Threaded

/-- Links to one more position: the last link leads to it, and it leads nowhere. -/
theorem Follows.concat {table other : SiteTable} {next : Bucket → Option BucketId}
    {newest : BucketId} (hNewest : (other.get? newest).map next = some none) :
    ∀ {ids : List BucketId}, table.Follows next ids → ids.Nodup →
      (∀ id ∈ ids, (other.get? id).map next =
        if ids.getLast? = some id then some (some newest) else (table.get? id).map next) →
      other.Follows next (ids ++ [newest])
  | [], _, _, _ => ⟨hNewest, trivial⟩
  | [id], _, _, hLinks => by
    refine ⟨?_, hNewest, trivial⟩
    simpa using hLinks id List.mem_cons_self
  | id :: second :: rest, ⟨hHead, hRest⟩, hNodup, hLinks => by
    obtain ⟨hNotMem, hNodupRest⟩ := List.nodup_cons.mp hNodup
    have hNotLast : (id :: second :: rest).getLast? ≠ some id := by
      rw [List.getLast?_cons_cons]
      exact fun hLast => hNotMem (List.mem_of_getLast? hLast)
    refine ⟨?_, hRest.concat hNewest hNodupRest fun place hMem => ?_⟩
    · rw [hLinks id List.mem_cons_self, if_neg hNotLast, hHead]
      rfl
    · rw [hLinks place (List.mem_cons_of_mem id hMem), List.getLast?_cons_cons]

namespace Threaded

variable {table : SiteTable} (threaded : table.Threaded)
include threaded

theorem kindIds_create (kind other : EventKind) (stack : CallStack) :
    (table.create kind stack).kindIds other =
      table.kindIds other ++ if kind = other then [table.buckets.size] else [] := by
  rw [kindIds, threaded.idsWhere_create kind stack fun _ _ => rfl, kindIds]
  simp only [decide_eq_true_eq]
  rfl

theorem chainIds_create (kind : EventKind) (stack : CallStack) (chain : Nat) :
    (table.create kind stack).chainIds chain =
      if table.chainOf (stack.mix kind.seed) = chain then
        table.buckets.size :: table.chainIds chain
      else table.chainIds chain := by
  simp only [chainIds, chainOf_create]
  rw [threaded.idsWhere_create kind stack fun _ _ => rfl, List.reverse_append]
  simp only [decide_eq_true_eq]
  rw [hash_newBucket]
  split <;> rfl

/-- A link other than the creation-order link is what it was at every old position. -/
theorem map_get?_create {α : Type} (kind : EventKind) (stack : CallStack) {field : Bucket → α}
    (hField : ∀ bucket next, field { bucket with allNext := next } = field bucket)
    {id : BucketId} (hLt : id < table.buckets.size) :
    ((table.create kind stack).get? id).map field = (table.get? id).map field := by
  rw [threaded.get?_create, if_neg (Nat.ne_of_lt hLt), Option.map_map]
  congr 1
  funext bucket
  rw [Function.comp_apply]
  split
  · exact hField bucket _
  · rfl

theorem bucket_create {kind : EventKind} {stack : CallStack} {id : BucketId} {bucket : Bucket}
    (hGet : (table.create kind stack).get? id = some bucket) :
    bucket = table.newBucket kind stack ∨
      ∃ old next, table.get? id = some old ∧ bucket = { old with allNext := next } := by
  rw [threaded.get?_create] at hGet
  split at hGet
  · exact .inl (Option.some.inj hGet).symm
  · obtain ⟨old, hOld, hBucket⟩ := Option.map_eq_some_iff.mp hGet
    refine .inr ⟨old, bucket.allNext, hOld, ?_⟩
    rw [← hBucket]
    split <;> rfl

theorem create {kind : EventKind} {stack : CallStack} (hUnseen : (kind, stack) ∉ table.keys) :
    (table.create kind stack).Threaded where
  chains_pos := by
    rw [chains_create, Array.size_setIfInBounds]
    exact threaded.chains_pos
  hashed := by
    intro id bucket hGet
    rcases threaded.bucket_create hGet with rfl | ⟨old, next, hOld, rfl⟩
    · rfl
    · exact threaded.hashed id old hOld
  tagged := by
    intro id bucket hGet
    rcases threaded.bucket_create hGet with rfl | ⟨old, next, hOld, rfl⟩
    · cases kind <;> rfl
    · exact threaded.tagged id old hOld
  chainHeads := by
    intro chain hLt
    rw [chains_create, Array.size_setIfInBounds] at hLt
    rw [chains_create, threaded.chainIds_create, Array.getElem?_setIfInBounds]
    by_cases hChain : table.chainOf (stack.mix kind.seed) = chain
    · rw [if_pos hChain, if_pos hChain, if_pos (hChain ▸ hLt), List.head?_cons]
    · rw [if_neg hChain, if_neg hChain]
      exact threaded.chainHeads chain hLt
  chainLinks := by
    intro chain
    have hOld : (table.create kind stack).Follows Bucket.hashNext (table.chainIds chain) := by
      refine (threaded.chainLinks chain).congr fun id hMem => ?_
      obtain ⟨bucket, hGet, -⟩ := mem_idsWhere.mp (List.mem_reverse.mp hMem)
      exact threaded.map_get?_create kind stack (fun _ _ => rfl)
        ((table.isSome_get?_iff id).mp (by rw [hGet, Option.isSome_some]))
    rw [threaded.chainIds_create]
    split
    next hChain =>
      -- The new bucket leads to what was the head of its chain.
      refine ⟨?_, hOld⟩
      rw [threaded.get?_create, if_pos rfl, Option.map_some, ← hChain, ← threaded.chainHead_eq]
      rfl
    next => exact hOld
  listEnds := by
    intro other
    rw [list_create, threaded.kindIds_create]
    by_cases hKind : other = kind
    · subst hKind
      rw [if_pos rfl, if_pos rfl, threaded.listEnds]
      simp [KindList.append, KindList.ofIds, List.head?_append]
    · rw [if_neg hKind, if_neg (Ne.symm hKind), List.append_nil]
      exact threaded.listEnds other
  listLinks := by
    intro other
    have hOld : ∀ id ∈ table.kindIds other,
        ((table.create kind stack).get? id).map Bucket.allNext =
          if (table.list kind).tail = some id then some (some table.buckets.size)
          else (table.get? id).map Bucket.allNext := by
      intro id hMem
      obtain ⟨bucket, hGet, -⟩ := mem_idsWhere.mp hMem
      have hLt := (table.isSome_get?_iff id).mp (by rw [hGet, Option.isSome_some])
      rw [threaded.get?_create, if_neg (Nat.ne_of_lt hLt), hGet]
      simp only [Option.map_some]
      split <;> rfl
    rw [threaded.kindIds_create]
    split
    next hKind =>
      subst hKind
      refine Follows.concat ?_ (threaded.listLinks kind) (table.nodup_idsWhere _) ?_
      · rw [threaded.get?_create, if_pos rfl]
        rfl
      · intro id hMem
        rw [hOld id hMem, threaded.listEnds]
        rfl
    next hKind =>
      rw [List.append_nil]
      refine (threaded.listLinks other).congr fun id hMem => ?_
      rw [hOld id hMem, if_neg]
      -- The tail of the list that grows is of the other kind.
      intro hTail
      obtain ⟨bucket, hGet, hIs⟩ := mem_idsWhere.mp (threaded.tail_mem hTail)
      obtain ⟨same, hGetSame, hIsOther⟩ := mem_idsWhere.mp hMem
      rw [hGet] at hGetSame
      cases hGetSame
      exact hKind ((of_decide_eq_true hIs).symm.trans (of_decide_eq_true hIsOther))
  distinct := by
    rw [threaded.keys_create]
    exact List.nodup_append.mpr ⟨threaded.distinct, by simp, fun key hMem other
      hOther hEq => hUnseen (List.mem_singleton.mp hOther ▸ hEq ▸ hMem)⟩

end Threaded

/-! ## Counting and rotating -/

theorem get?_update (table : SiteTable) (id place : BucketId) (change : Counters → Counters) :
    (table.update id change).get? place = (table.get? place).map fun bucket =>
      if place = id then { bucket with counters := change bucket.counters } else bucket := by
  by_cases hPlace : place = id
  · simp [update, get?, Array.getElem?_modify, hPlace]
  · simp [update, get?, Array.getElem?_modify, hPlace, Ne.symm hPlace]

theorem size_update (table : SiteTable) (id : BucketId) (change : Counters → Counters) :
    (table.update id change).buckets.size = table.buckets.size :=
  Array.size_modify

/-- A class that does not look at the counters stays what it is. -/
theorem idsWhere_update (table : SiteTable) (id : BucketId) (change : Counters → Counters)
    {p : Bucket → Bool} (hCounters : ∀ bucket counters,
      p { bucket with counters := counters } = p bucket) :
    (table.update id change).idsWhere p = table.idsWhere p := by
  rw [idsWhere, idsWhere, size_update]
  apply List.filter_congr
  intro place _
  rw [get?_update]
  cases table.get? place with
  | none => rfl
  | some bucket =>
    rw [Option.map_some, Option.any_some, Option.any_some]
    split
    · exact hCounters bucket _
    · rfl

/-- A field other than the counters is what it was. -/
theorem map_get?_update {α : Type} (table : SiteTable) (id place : BucketId)
    (change : Counters → Counters) {field : Bucket → α}
    (hField : ∀ bucket counters, field { bucket with counters := counters } = field bucket) :
    ((table.update id change).get? place).map field = (table.get? place).map field := by
  rw [get?_update, Option.map_map]
  congr 1
  funext bucket
  rw [Function.comp_apply]
  split
  · exact hField bucket _
  · rfl

theorem keys_update (table : SiteTable) (id : BucketId) (change : Counters → Counters) :
    (table.update id change).keys = table.keys := by
  apply List.ext_getElem?
  intro place
  rw [keys_getElem?, keys_getElem?, map_get?_update]
  exact fun _ _ => rfl

theorem list_update (table : SiteTable) (id : BucketId) (change : Counters → Counters)
    (kind : EventKind) : (table.update id change).list kind = table.list kind := by
  cases kind <;> rfl

theorem Threaded.update {table : SiteTable} (threaded : table.Threaded) (id : BucketId)
    {change : Counters → Counters} (hKind : ∀ counters, (change counters).kind = counters.kind) :
    (table.update id change).Threaded where
  chains_pos := threaded.chains_pos
  hashed := by
    intro place bucket hGet
    rw [get?_update] at hGet
    obtain ⟨old, hOld, rfl⟩ := Option.map_eq_some_iff.mp hGet
    have hHash := threaded.hashed place old hOld
    split <;> exact hHash
  tagged := by
    intro place bucket hGet
    rw [get?_update] at hGet
    obtain ⟨old, hOld, rfl⟩ := Option.map_eq_some_iff.mp hGet
    have hTag := threaded.tagged place old hOld
    split
    · exact (hKind _).trans hTag
    · exact hTag
  chainHeads := by
    intro chain hLt
    rw [chainIds, idsWhere_update table id change fun _ _ => rfl]
    exact threaded.chainHeads chain hLt
  chainLinks := by
    intro chain
    rw [chainIds, idsWhere_update table id change fun _ _ => rfl]
    exact (threaded.chainLinks chain).congr fun place _ =>
      table.map_get?_update id place change fun _ _ => rfl
  listEnds := by
    intro kind
    rw [list_update, kindIds, idsWhere_update table id change fun _ _ => rfl]
    exact threaded.listEnds kind
  listLinks := by
    intro kind
    rw [kindIds, idsWhere_update table id change fun _ _ => rfl]
    exact (threaded.listLinks kind).congr fun place _ =>
      table.map_get?_update id place change fun _ _ => rfl
  distinct := by
    rw [keys_update]
    exact threaded.distinct

/-- Updating the buckets at some positions, one after the other. -/
theorem get?_foldl_update (change : Counters → Counters) (place : BucketId) :
    ∀ {ids : List BucketId} (table : SiteTable), ids.Nodup →
      (ids.foldl (fun updated id => updated.update id change) table).get? place =
        (table.get? place).map fun bucket =>
          if place ∈ ids then { bucket with counters := change bucket.counters } else bucket
  | [], table, _ => by simp
  | id :: rest, table, hNodup => by
    obtain ⟨hNotMem, hRest⟩ := List.nodup_cons.mp hNodup
    rw [List.foldl_cons, get?_foldl_update change place _ hRest, get?_update, Option.map_map]
    congr 1
    funext bucket
    by_cases hPlace : place = id
    · simp [hPlace, hNotMem]
    · simp [hPlace]

namespace Threaded

variable {table : SiteTable} (threaded : table.Threaded)
include threaded

theorem foldl_update {change : Counters → Counters}
    (hKind : ∀ counters, (change counters).kind = counters.kind) (ids : List BucketId) :
    (ids.foldl (fun updated id => updated.update id change) table).Threaded := by
  induction ids generalizing table with
  | nil => exact threaded
  | cons id rest ih => exact ih (threaded.update id hKind)

/-- A rotation advances the counters of every bucket; those of blocking buckets do not move. -/
theorem get?_rotate (id : BucketId) :
    table.rotate.get? id = (table.get? id).map fun bucket =>
      { bucket with counters := bucket.counters.rotate } := by
  have hNodup : (table.kindIds .memory).Nodup := table.nodup_idsWhere _
  rw [SiteTable.rotate, threaded.ids_eq, get?_foldl_update _ _ _ hNodup]
  cases hGet : table.get? id with
  | none => rfl
  | some bucket =>
    rw [Option.map_some, Option.map_some]
    split
    · rfl
    next hNotMem =>
      have hBlocking : bucket.counters.kind ≠ .memory := by
        rw [threaded.tagged id bucket hGet]
        exact fun hKind => hNotMem (mem_idsWhere.mpr ⟨bucket, hGet, decide_eq_true hKind⟩)
      cases hCounters : bucket.counters with
      | memory gens => exact absurd (by rw [hCounters]; rfl) hBlocking
      | blocking counts => rw [Counters.rotate, ← hCounters]

theorem rotate : table.rotate.Threaded :=
  threaded.foldl_update (fun counters => by cases counters <;> rfl) _

theorem tally (id : BucketId) (event : Event) :
    (table.update id (Counters.tally event)).Threaded :=
  threaded.update id fun counters => by cases event <;> cases counters <;> rfl

theorem lookup (kind : EventKind) (stack : CallStack) :
    (table.lookup kind stack).table.Threaded := by
  rw [SiteTable.lookup, threaded.find?_eq]
  split
  next hFound =>
    split at hFound
    · cases hFound
      exact threaded
    · cases hFound
  next hMissing =>
    split at hMissing
    · cases hMissing
    next hUnseen => exact threaded.create hUnseen

end Threaded

theorem threaded_withCapacity (chains capacity : Nat) :
    (withCapacity chains capacity).Threaded := by
  have hGet : ∀ id, (withCapacity chains capacity).get? id = none := fun _ => rfl
  have hIds : ∀ p, (withCapacity chains capacity).idsWhere p = [] := fun _ => rfl
  refine ⟨?_, ?_, ?_, ?_, ?_, ?_, ?_, List.nodup_nil⟩
  · simp only [withCapacity, empty, Array.size_replicate]
    omega
  · intro id bucket hSome
    cases (hGet id).symm.trans hSome
  · intro id bucket hSome
    cases (hGet id).symm.trans hSome
  · intro chain hLt
    rw [chainIds, hIds]
    simp only [withCapacity, empty, Array.size_replicate] at hLt ⊢
    rw [Array.getElem?_replicate, if_pos hLt]
    rfl
  · intro chain
    rw [chainIds, hIds]
    trivial
  · intro kind
    cases kind <;> rfl
  · intro kind
    rw [kindIds, hIds]
    trivial

end SiteTable

end SiteProfiler
