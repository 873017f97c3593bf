import Mathlib

/-!
# Greedy grouping

Members are gone through in increasing order. One that has no group yet becomes the leader of
the next group, which takes those of the members related to it that have none. For a relation
that is transitive the groups are its classes.
-/

namespace Gpgnet4TA.Lib

variable {α : Type} [LinearOrder α] {V : α → Prop} {R : α → α → Prop} {leaders : List α} {group : α → Option ℕ}

/-- The groups made so far among the members `V`, numbered as their leaders are. -/
structure Grouping (V : α → Prop) (R : α → α → Prop) (leaders : List α) (group : α → Option ℕ) : Prop where
  valid : ∀ a i, group a = some i → V a ∧ i < leaders.length
  leads : ∀ (i : ℕ) (k : α), leaders[i]? = some k → group k = some i
  members : ∀ (i : ℕ) (k : α), leaders[i]? = some k → ∀ a, V a →
    (group a = some i ↔ (a = k ∨ R k a) ∧ ∀ j < i, group a ≠ some j)
  order : leaders.Pairwise (· < ·)
  lowest : ∀ (i : ℕ) (k : α), leaders[i]? = some k → ∀ a, group a = some i → k ≤ a
  waiting : ∀ a, V a → group a = none → ∀ k ∈ leaders, k < a

namespace Grouping

theorem start (V : α → Prop) (R : α → α → Prop) : Grouping V R [] fun _ => none where
  valid := fun _ _ h => nomatch h
  leads := fun _ _ h => nomatch h
  members := fun _ _ h => nomatch h
  order := List.Pairwise.nil
  lowest := fun _ _ h => nomatch h
  waiting := fun _ _ _ _ h => nomatch h

/-- The lowest member without a group becomes a leader. -/
theorem lead (h : Grouping V R leaders group) {group' : α → Option ℕ} {key : α} (hkey : V key)
    (hnone : group key = none) (hlow : ∀ a, V a → group a = none → key ≤ a)
    (htake : ∀ a, V a → (a = key ∨ R key a) → group a = none → group' a = some leaders.length)
    (hkeep : ∀ a, ¬ (V a ∧ (a = key ∨ R key a) ∧ group a = none) → group' a = group a) :
    Grouping V R (leaders ++ [key]) group' := by
  -- a group that there was is kept, and the new one has the next number
  have hold : ∀ a i, group a = some i → group' a = some i := by
    intro a i ha
    have hc : ¬ (V a ∧ (a = key ∨ R key a) ∧ group a = none) := by
      rw [ha]
      exact fun hc => nomatch hc.2.2
    rw [hkeep a hc]
    exact ha
  have hcases : ∀ a i, group' a = some i →
      group a = some i ∨ i = leaders.length ∧ V a ∧ (a = key ∨ R key a) ∧ group a = none := by
    intro a i ha
    by_cases hc : V a ∧ (a = key ∨ R key a) ∧ group a = none
    · rw [htake a hc.1 hc.2.1 hc.2.2] at ha
      exact .inr ⟨(Option.some.inj ha).symm, hc⟩
    · rw [hkeep a hc] at ha
      exact .inl ha
  have hlast : ∀ (i : ℕ) (k : α), (leaders ++ [key])[i]? = some k →
      leaders[i]? = some k ∧ i < leaders.length ∨ i = leaders.length ∧ k = key := by
    intro i k hk
    by_cases hi : i < leaders.length
    · rw [List.getElem?_append_left hi] at hk
      exact .inl ⟨hk, hi⟩
    · rw [List.getElem?_append_right (by omega)] at hk
      obtain ⟨hi', hk'⟩ := List.getElem?_eq_some_iff.mp hk
      rw [List.length_singleton] at hi'
      exact .inr ⟨by omega, by simpa using hk'.symm⟩
  refine ⟨?_, ?_, ?_, ?_, ?_, ?_⟩
  · intro a i ha
    rw [List.length_append, List.length_singleton]
    rcases hcases a i ha with ha | ⟨rfl, hV, -⟩
    · obtain ⟨hV, hi⟩ := h.valid a i ha
      exact ⟨hV, by omega⟩
    · exact ⟨hV, by omega⟩
  · intro i k hk
    rcases hlast i k hk with ⟨hk, -⟩ | ⟨rfl, rfl⟩
    · exact hold k i (h.leads i k hk)
    · exact htake k hkey (.inl rfl) hnone
  · intro i k hk a hV
    rcases hlast i k hk with ⟨hk, hi⟩ | ⟨rfl, rfl⟩
    · have hmembers := h.members i k hk a hV
      have hsame : ∀ j < leaders.length, group' a = some j ↔ group a = some j := by
        intro j hj
        constructor
        · intro ha
          rcases hcases a j ha with ha | ⟨rfl, -⟩
          · exact ha
          · exact absurd hj (lt_irrefl _)
        · exact hold a j
      rw [hsame i hi, hmembers]
      refine and_congr_right fun _ => forall₂_congr fun j hj => ?_
      rw [Ne, Ne, hsame j (hj.trans hi)]
    · constructor
      · intro ha
        rcases hcases a _ ha with ha | ⟨-, -, hrel, hgroup⟩
        · exact absurd (h.valid a _ ha).2 (lt_irrefl _)
        · refine ⟨hrel, ?_⟩
          intro j hj hja
          rw [ha] at hja
          cases hja
          exact lt_irrefl _ hj
      · intro ha
        refine htake a hV ha.1 ?_
        cases hg : group a with
        | none => rfl
        | some j => exact absurd (hold a j hg) (ha.2 j (h.valid a j hg).2)
  · rw [List.pairwise_append]
    refine ⟨h.order, List.pairwise_singleton _ _, ?_⟩
    intro k hk k' hk'
    rw [List.mem_singleton.mp hk']
    exact h.waiting key hkey hnone k hk
  · intro i k hk a ha
    rcases hlast i k hk with ⟨hk, hi⟩ | ⟨rfl, rfl⟩
    · rcases hcases a i ha with ha | ⟨rfl, -⟩
      · exact h.lowest i k hk a ha
      · exact absurd hi (lt_irrefl _)
    · rcases hcases a _ ha with ha | ⟨-, hV, -, hgroup⟩
      · exact absurd (h.valid a _ ha).2 (lt_irrefl _)
      · exact hlow a hV hgroup
  · intro a hV ha k hk
    have hgroup : group a = none := by
      cases hg : group a with
      | none => rfl
      | some j => exact absurd (hold a j hg) (by rw [ha]; exact nofun)
    rcases List.mem_append.mp hk with hk | hk
    · exact h.waiting a hV hgroup k hk
    · rw [List.mem_singleton.mp hk]
      refine lt_of_le_of_ne (hlow a hV hgroup) ?_
      intro heq
      obtain rfl := heq
      rw [htake key hkey (.inl rfl) hnone] at ha
      cases ha

/-- A member with a group has a leader. -/
theorem exists_leader (h : Grouping V R leaders group) {a : α} {i : ℕ} (ha : group a = some i) :
    ∃ k, leaders[i]? = some k ∧ V k ∧ (a = k ∨ R k a) := by
  obtain ⟨hV, hi⟩ := h.valid a i ha
  have hk : leaders[i]? = some leaders[i] := List.getElem?_eq_getElem hi
  exact ⟨leaders[i], hk, (h.valid _ i (h.leads i _ hk)).1, ((h.members i _ hk a hV).mp ha).1⟩

/-- Members related to each other are in one group. -/
theorem same_of_rel (h : Grouping V R leaders group)
    (htrans : ∀ a b c, V a → V b → V c → R a b → R b c → a ≠ c → R a c) {a b : α} (ha : V a) (hb : V b)
    (hrel : R a b) {i j : ℕ} (hi : group a = some i) (hj : group b = some j) (hij : i ≤ j) : i = j := by
  obtain ⟨k, hk, hV, hak⟩ := h.exists_leader hi
  have hbk : b = k ∨ R k b := by
    by_cases hne : b = k
    · exact .inl hne
    · rcases hak with rfl | hak
      · exact .inr hrel
      · exact .inr (htrans k a b hV ha hb hak hrel (Ne.symm hne))
  have hgroup : group b = some i := by
    refine (h.members i k hk b hb).mpr ⟨hbk, ?_⟩
    intro j' hj' hbj
    rw [hj] at hbj
    cases hbj
    omega
  rw [hj] at hgroup
  exact (Option.some.inj hgroup).symm

/-- When everybody has a group, the groups of a symmetric and transitive relation are its
classes. -/
theorem same_iff (h : Grouping V R leaders group) (hall : ∀ a, V a → group a ≠ none)
    (hsymm : ∀ a b, R a b → R b a)
    (htrans : ∀ a b c, V a → V b → V c → R a b → R b c → a ≠ c → R a c) {a b : α} (ha : V a) (hb : V b) :
    group a = group b ↔ a = b ∨ R a b := by
  obtain ⟨i, hi⟩ := Option.ne_none_iff_exists'.mp (hall a ha)
  obtain ⟨j, hj⟩ := Option.ne_none_iff_exists'.mp (hall b hb)
  constructor
  · intro heq
    rw [hi] at heq
    obtain ⟨k, hk, hV, hak⟩ := h.exists_leader hi
    obtain ⟨k', hk', -, hbk⟩ := h.exists_leader heq.symm
    rw [hk] at hk'
    cases hk'
    by_cases hne : a = b
    · exact .inl hne
    · rcases hak with rfl | hak
      · rcases hbk with rfl | hbk
        · exact .inl rfl
        · exact .inr hbk
      · rcases hbk with rfl | hbk
        · exact .inr (hsymm _ _ hak)
        · exact .inr (htrans a k b ha hV hb (hsymm _ _ hak) hbk hne)
  · intro hrel
    rcases hrel with rfl | hrel
    · rfl
    · rw [hi, hj]
      rcases le_total i j with hij | hji
      · rw [h.same_of_rel htrans ha hb hrel hi hj hij]
      · rw [h.same_of_rel htrans hb ha (hsymm a b hrel) hj hi hji]

end Grouping

end Gpgnet4TA.Lib
