import SiteProfiler.Pprof.OfSnapshot
import SiteProfiler.Proofs.Site.Order

/-!
# Interning

A position handed out for a value stays the position of that value, however many values are
interned after it: the list of known values only grows at its end.  It holds each value once, in
the order of first appearance.
-/

namespace SiteProfiler.Pprof

theorem getElem?_of_prefix {α : Type} {front all : List α} (hPrefix : front <+: all)
    {index : Nat} {value : α}
    (hValue : front[index]? = some value) : all[index]? = some value := by
  obtain ⟨hIndex, rfl⟩ := List.getElem?_eq_some_iff.1 hValue
  exact List.prefix_iff_getElem?.1 hPrefix index hIndex

variable {α : Type} [BEq α] [LawfulBEq α]

/-! ## One value -/

theorem known_intern (known : List α) (value : α) :
    (intern known value).2 = if value ∈ known then known else known ++ [value] := by
  rw [intern]
  split
  · next index hIndex =>
    obtain ⟨hBound, hValue, -⟩ := List.idxOf?_eq_some_iff.1 hIndex
    rw [if_pos (hValue ▸ List.getElem_mem hBound)]
  · next hNone => rw [if_neg (List.idxOf?_eq_none_iff.1 hNone)]

theorem getElem?_intern (known : List α) (value : α) :
    (intern known value).2[(intern known value).1]? = some value := by
  rw [intern]
  split
  · next index hIndex =>
    obtain ⟨hBound, hValue, -⟩ := List.idxOf?_eq_some_iff.1 hIndex
    rw [List.getElem?_eq_getElem hBound, hValue]
  · exact List.getElem?_concat_length

theorem prefix_intern (known : List α) (value : α) : known <+: (intern known value).2 := by
  rw [known_intern]
  split
  · exact List.prefix_rfl
  · exact List.prefix_append known [value]

theorem nodup_intern {known : List α} (hNodup : known.Nodup) (value : α) :
    (intern known value).2.Nodup := by
  rw [known_intern]
  split
  · exact hNodup
  · next hNew => simpa using hNodup.concat hNew

theorem known_intern_eraseDups (seen : List α) (value : α) :
    (intern seen.eraseDups value).2 = (seen ++ [value]).eraseDups := by
  rw [known_intern, eraseDups_concat]

/-! ## Several values -/

omit [LawfulBEq α] in
theorem internAll_cons (known : List α) (value : α) (rest : List α) :
    internAll known (value :: rest) =
      ((intern known value).1 :: (internAll (intern known value).2 rest).1,
        (internAll (intern known value).2 rest).2) := rfl

theorem prefix_internAll (known values : List α) : known <+: (internAll known values).2 := by
  induction values generalizing known with
  | nil => exact List.prefix_rfl
  | cons value rest ih => exact (prefix_intern known value).trans (ih _)

theorem known_internAll_eraseDups (seen values : List α) :
    (internAll seen.eraseDups values).2 = (seen ++ values).eraseDups := by
  induction values generalizing seen with
  | nil => rw [internAll, List.append_nil]
  | cons value rest ih =>
    rw [internAll_cons, known_intern_eraseDups, ih, List.append_assoc, List.singleton_append]

/-- Each position leads back to its value, in every list that the known values grow into. -/
theorem map_getElem?_internAll (known values : List α) {all : List α}
    (hPrefix : (internAll known values).2 <+: all) :
    (internAll known values).1.map (all[·]?) = values.map some := by
  induction values generalizing known with
  | nil => rfl
  | cons value rest ih =>
    rw [internAll_cons] at hPrefix ⊢
    have hFirst : all[(intern known value).1]? = some value :=
      getElem?_of_prefix ((prefix_internAll _ rest).trans hPrefix) (getElem?_intern known value)
    rw [List.map_cons, List.map_cons, hFirst, ih (intern known value).2 hPrefix]

end SiteProfiler.Pprof
