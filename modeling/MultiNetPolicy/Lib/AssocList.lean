import Mathlib

/-!
# Association lists as maps

A map is a list of pairs; `List.lookup` reads it.  When the keys are distinct, the pairs of the list
are the entries of the map (`lookup_eq_some_iff_mem`), a list of the same length that has all of
them has no others (`perm_of_subset`), and the order does not matter (`lookup_congr`).
-/

namespace AssocList

variable {α β : Type} [BEq α] [LawfulBEq α]

/-- What is found is an entry. -/
theorem mem_of_lookup_eq_some {l : List (α × β)} {k : α} {v : β} (h : l.lookup k = some v) :
    (k, v) ∈ l := by
  obtain ⟨l₁, l₂, rfl, -⟩ := List.lookup_eq_some_iff.1 h
  simp

/-- With distinct keys, what is found are exactly the entries. -/
theorem lookup_eq_some_iff_mem {l : List (α × β)} (hl : (l.map Prod.fst).Nodup) {k : α} {v : β} :
    l.lookup k = some v ↔ (k, v) ∈ l := by
  refine ⟨mem_of_lookup_eq_some, fun hmem => ?_⟩
  obtain ⟨l₁, l₂, rfl⟩ := List.append_of_mem hmem
  refine List.lookup_eq_some_iff.2 ⟨l₁, l₂, rfl, fun p hp => ?_⟩
  rw [List.map_append, List.nodup_append] at hl
  rw [bne_iff_ne]
  exact (hl.2.2 p.1 (List.mem_map_of_mem hp) k (by simp)).symm

omit [BEq α] [LawfulBEq α] in
/-- A map with distinct keys whose entries are all in a list of the same length is that list. -/
theorem perm_of_subset {l l' : List (α × β)} (hl : (l.map Prod.fst).Nodup) (hsub : l ⊆ l')
    (hlen : l.length = l'.length) : l.Perm l' := by
  have hsubperm : l.Subperm l' := List.subperm_of_subset (List.Nodup.of_map Prod.fst hl) hsub
  exact hsubperm.perm_of_length_le hlen.ge

/-- The order of the entries does not matter. -/
theorem lookup_congr {l l' : List (α × β)} (hl : (l.map Prod.fst).Nodup) (hperm : l.Perm l')
    (k : α) : l.lookup k = l'.lookup k := by
  have hl' : (l'.map Prod.fst).Nodup := (hperm.map Prod.fst).nodup_iff.1 hl
  ext v
  rw [lookup_eq_some_iff_mem hl, lookup_eq_some_iff_mem hl', hperm.mem_iff]

end AssocList
