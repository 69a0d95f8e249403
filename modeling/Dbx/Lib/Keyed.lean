import Mathlib.Data.List.Dedup
import Mathlib.Data.List.Sort

/-!
# Hash maps filled from a list

A hash map collected from a list has, for each key, the last item with that key. What a
lookup returns is a fact about the list; where keys do not repeat, it is the item.
-/
namespace Dbx.Lib.Keyed

open List

variable {α κ β : Type} {key : α → κ} {items : List α} {k : κ} {x : α}

section Lookup

variable [DecidableEq κ]

/-- The item that a hash map filled from the list has under a key. -/
def lookupLast (key : α → κ) (items : List α) (k : κ) : Option α :=
  items.reverse.find? fun x => key x == k

theorem lookupLast_eq_none : lookupLast key items k = none ↔ ∀ x ∈ items, key x ≠ k := by
  simp [lookupLast, find?_eq_none]

theorem lookupLast_some (h : lookupLast key items k = some x) : x ∈ items ∧ key x = k := by
  have member := mem_of_find?_eq_some h
  have found := find?_some h
  exact ⟨mem_reverse.mp member, by simpa using found⟩

/-- Items with other keys do not matter. -/
theorem lookupLast_filter {p : α → Bool} (kept : ∀ x, key x = k → p x = true) :
    lookupLast key (items.filter p) k = lookupLast key items k := by
  unfold lookupLast
  rw [← filter_reverse, find?_filter]
  congr 1
  funext x
  by_cases same : key x = k
  · simp [kept x same, same]
  · simp [same]

theorem lookupLast_of_mem (distinct : (items.map key).Nodup) (member : x ∈ items)
    (hk : key x = k) : lookupLast key items k = some x := by
  cases found : lookupLast key items k with
  | none => exact absurd hk (lookupLast_eq_none.mp found x member)
  | some y =>
    obtain ⟨hy, same⟩ := lookupLast_some found
    rw [inj_on_of_nodup_map distinct hy member (same.trans hk.symm)]

end Lookup

/-- Among lists made one per key, only that of the key looked for has items that pass. -/
theorem filter_flatMap_of_mem {keys : List κ} (distinct : keys.Nodup) {f : κ → List β}
    {p : β → Bool} (member : k ∈ keys) (others : ∀ j ≠ k, (f j).filter p = []) :
    (keys.flatMap f).filter p = (f k).filter p := by
  have empty : ∀ js : List κ, k ∉ js → (js.flatMap f).filter p = [] := by
    intro js absent
    rw [filter_flatMap, flatMap_eq_nil_iff]
    intro j hj
    exact others j fun same => absent (same ▸ hj)
  obtain ⟨front, back, rfl⟩ := append_of_mem member
  have fresh := nodup_middle.mp distinct
  obtain ⟨absent, _⟩ := nodup_cons.mp fresh
  rw [mem_append, not_or] at absent
  simp [flatMap_append, empty front absent.1, empty back absent.2]

end Dbx.Lib.Keyed
