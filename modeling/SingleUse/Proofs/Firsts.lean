import Mathlib.Data.List.Induction
import Mathlib.Data.List.Nodup
import Mathlib.Tactic.Common

/-!
# First occurrences

Scopes and bindings are kept in the order in which their keys first came up; what comes later under
the same key adds no entry.  The *firsts* of a list are its elements without those whose key has
come up before.
-/

namespace SingleUse

variable {α β : Type} [DecidableEq β]

/-- The elements of a list that are the first ones with their key. -/
def firsts (key : α → β) : List α → List α
  | [] => []
  | a :: rest => a :: (firsts key rest).filter fun b => key b ≠ key a

variable {key : α → β}

/-- A further element is one of the firsts if its key is new. -/
theorem firsts_concat (l : List α) (a : α) :
  firsts key (l ++ [a]) = if key a ∈ l.map key then firsts key l else firsts key l ++ [a]
  := by
  induction l with
  | nil => simp [firsts]
  | cons head rest ih =>
    rw [List.cons_append, firsts, firsts, ih]
    by_cases hhead : key a = key head
    · split <;> simp [hhead]
    · by_cases hrest : key a ∈ rest.map key
      · simp [hrest]
      · simp [hhead, hrest]

theorem firsts_sublist (l : List α) :
  (firsts key l).Sublist l
  := by
  induction l with
  | nil => exact List.Sublist.slnil
  | cons head rest ih => exact (List.filter_sublist.trans ih).cons_cons head

/-- The firsts have all keys of the list. -/
theorem mem_map_firsts {l : List α} {k : β} :
  k ∈ (firsts key l).map key ↔ k ∈ l.map key
  := by
  induction l using List.reverseRecOn with
  | nil => simp [firsts]
  | append_singleton l a ih =>
    rw [firsts_concat]
    split
    · rename_i hmem
      rw [ih, List.map_append, List.mem_append, List.map_singleton, List.mem_singleton]
      constructor
      · exact .inl
      · rintro (hk | rfl)
        · exact hk
        · exact hmem
    · simp only [List.map_append, List.mem_append, ih]

/-- No two of the firsts have the same key. -/
theorem nodup_map_firsts (l : List α) :
  ((firsts key l).map key).Nodup
  := by
  induction l using List.reverseRecOn with
  | nil => simp [firsts]
  | append_singleton l a ih =>
    rw [firsts_concat]
    split
    · exact ih
    · rename_i hnew
      rw [← mem_map_firsts] at hnew
      simpa using ih.concat hnew

/-- Lists with the same elements have the same firsts up to the order. -/
theorem firsts_perm {l l' : List β} (h : ∀ a, a ∈ l ↔ a ∈ l') :
  (firsts id l).Perm (firsts id l')
  := by
  have hmem : ∀ (l : List β) (a : β), a ∈ firsts id l ↔ a ∈ l := by
    intro l a
    simpa using (mem_map_firsts : a ∈ (firsts id l).map id ↔ a ∈ l.map id)
  have hnodup : ∀ l : List β, (firsts id l).Nodup := by
    intro l
    simpa using (nodup_map_firsts l : ((firsts id l).map id).Nodup)
  apply (List.perm_ext_iff_of_nodup (hnodup l) (hnodup l')).mpr
  intro a
  rw [hmem, hmem, h]

end SingleUse
