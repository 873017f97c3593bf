import Mathlib

/-!
# Maps with numbers for keys

`std::map` and `QMap` with integer keys. Lookup after an update is an `if` on the keys, the
entries come in the order of their keys, and a loop that updates entry after entry is
described by what it does to each key.
-/

namespace Gpgnet4TA.Lib

abbrev Table (β : Type) := Std.ExtTreeMap ℕ β

namespace Table

variable {β γ : Type} {m : Table β}

theorem getElem?_insert (m : Table β) (k a : ℕ) (v : β) :
    (m.insert k v)[a]? = if a = k then some v else m[a]? := by
  by_cases h : a = k
  · simp [h]
  · simp [Std.ExtTreeMap.getElem?_insert, h, Ne.symm h]

theorem getElem?_erase (m : Table β) (k a : ℕ) :
    (m.erase k)[a]? = if a = k then none else m[a]? := by
  by_cases h : a = k
  · simp [h]
  · simp [Std.ExtTreeMap.getElem?_erase, h, Ne.symm h]

/-- An entry is written again. -/
theorem insert_eq_self {k : ℕ} {v : β} (h : m[k]? = some v) : m.insert k v = m := by
  refine Std.ExtTreeMap.ext_getElem? fun a => ?_
  rw [getElem?_insert]
  by_cases ha : a = k
  · rw [if_pos ha, ha, h]
  · rw [if_neg ha]

theorem set_insert_eq_self {S : Std.ExtTreeSet ℕ} {n : ℕ} (h : n ∈ S) : S.insert n = S := by
  refine Std.ExtTreeSet.ext_mem fun a => ?_
  rw [Std.ExtTreeSet.mem_insert, compare_eq_iff_eq]
  constructor
  · intro hx
    obtain rfl | ha := hx
    · exact h
    · exact ha
  · exact Or.inr

theorem set_erase_eq_self {S : Std.ExtTreeSet ℕ} {n : ℕ} (h : n ∉ S) : S.erase n = S := by
  refine Std.ExtTreeSet.ext_mem fun a => ?_
  rw [Std.ExtTreeSet.mem_erase, compare_eq_iff_eq.ne]
  constructor
  · exact fun ha => ha.2
  · intro ha
    refine ⟨?_, ha⟩
    intro heq
    obtain rfl := heq
    exact h ha

theorem mem_toList {k : ℕ} {v : β} : (k, v) ∈ m.toList ↔ m[k]? = some v :=
  Std.ExtTreeMap.mem_toList_iff_getElem?_eq_some

theorem mem_keys {k : ℕ} : k ∈ m.keys ↔ ∃ v, m[k]? = some v := by
  rw [Std.ExtTreeMap.mem_keys, Std.ExtTreeMap.mem_iff_isSome_getElem?, Option.isSome_iff_exists]

theorem contains_eq_false {k : ℕ} : m.contains k = false ↔ m[k]? = none := by
  rw [Std.ExtTreeMap.contains_eq_isSome_getElem?]
  cases m[k]? <;> simp

theorem contains_of_getElem? {k : ℕ} {v : β} (h : m[k]? = some v) : m.contains k = true := by
  rw [Std.ExtTreeMap.contains_eq_isSome_getElem?, h]
  rfl

theorem toList_pairwise (m : Table β) : m.toList.Pairwise fun p q => p.1 < q.1 := by
  refine m.ordered_keys_toList.imp ?_
  intro p q h
  exact compare_lt_iff_lt.mp h

theorem keys_pairwise (m : Table β) : m.keys.Pairwise (· < ·) := by
  refine m.ordered_keys.imp ?_
  intro p q h
  exact compare_lt_iff_lt.mp h

/-- A filter that only one key passes. -/
theorem filter_eq_singleton {k : ℕ} {v : β} (h : m[k]? = some v) (p : ℕ × β → Bool)
    (hp : ∀ a w, m[a]? = some w → (p (a, w) = true ↔ a = k)) : m.toList.filter p = [(k, v)] := by
  have hlist : ∀ l : List (ℕ × β), l.Pairwise (fun x y => x.1 < y.1) → (k, v) ∈ l →
      (∀ x ∈ l, p x = true ↔ x.1 = k) → l.filter p = [(k, v)] := by
    intro l
    induction l with
    | nil => intro _ hmem _; cases hmem
    | cons x l ih =>
      intro hl hmem hall
      rw [List.pairwise_cons] at hl
      have hrest : ∀ y ∈ l, p y = true ↔ y.1 = k := fun y hy => hall y (List.mem_cons_of_mem _ hy)
      rcases List.mem_cons.mp hmem with rfl | hmem
      · have hnone : l.filter p = [] := by
          rw [List.filter_eq_nil_iff]
          intro y hy hpy
          exact absurd ((hrest y hy).mp hpy) (hl.1 y hy).ne'
        rw [List.filter_cons_of_pos ((hall _ List.mem_cons_self).mpr rfl), hnone]
      · have hne : ¬ p x = true := by
          intro hpx
          exact absurd ((hall x List.mem_cons_self).mp hpx) (hl.1 _ hmem).ne
        rw [List.filter_cons_of_neg hne]
        exact ih hl.2 hmem hrest
  exact hlist m.toList m.toList_pairwise (mem_toList.mpr h) fun x hx => hp x.1 x.2 (mem_toList.mp hx)

end Table

end Gpgnet4TA.Lib
