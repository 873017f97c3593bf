import Mathlib

/-!
# Partial functions that are inverse to each other

Two tables that are kept side by side, each the other's inverse. A new pair keeps them so
exactly when it takes no partner away from another.
-/

namespace Gpgnet4TA.Lib

variable {α β : Type*} {f : α → Option β} {g : β → Option α}

def Inverse (f : α → Option β) (g : β → Option α) : Prop := ∀ a b, f a = some b ↔ g b = some a

namespace Inverse

theorem empty : Inverse (fun _ : α => (none : Option β)) fun _ => none := by
  intro a b
  constructor
  · intro h
    cases h
  · intro h
    cases h

variable [DecidableEq α] [DecidableEq β]

theorem insert_iff (h : Inverse f g) (a : α) (b : β) :
    Inverse (Function.update f a (some b)) (Function.update g b (some a)) ↔
      (∀ b', f a = some b' → b' = b) ∧ ∀ a', g b = some a' → a' = a := by
  constructor
  · intro hnew
    constructor
    · intro b' hb'
      by_contra hne
      have hold : Function.update g b (some a) b' = some a := by
        rw [Function.update_of_ne hne]
        exact (h a b').mp hb'
      have hback := (hnew a b').mpr hold
      rw [Function.update_self] at hback
      exact hne (Option.some.inj hback).symm
    · intro a' ha'
      by_contra hne
      have hold : Function.update f a (some b) a' = some b := by
        rw [Function.update_of_ne hne]
        exact (h a' b).mpr ha'
      have hback := (hnew a' b).mp hold
      rw [Function.update_self] at hback
      exact hne (Option.some.inj hback).symm
  · intro hgiven x y
    obtain ⟨hf, hg⟩ := hgiven
    rw [Function.update_apply, Function.update_apply]
    by_cases hx : x = a
    · by_cases hy : y = b
      · simp [hx, hy]
      · rw [if_pos hx, if_neg hy, hx]
        constructor
        · intro heq
          exact absurd (Option.some.inj heq).symm hy
        · intro hgy
          exact absurd (hf y ((h a y).mpr hgy)) hy
    · by_cases hy : y = b
      · rw [if_neg hx, if_pos hy, hy]
        constructor
        · intro hfx
          exact absurd (hg x ((h x b).mp hfx)) hx
        · intro heq
          exact absurd (Option.some.inj heq).symm hx
      · rw [if_neg hx, if_neg hy]
        exact h x y

theorem erase (h : Inverse f g) {a : α} {b : β} (hab : f a = some b) :
    Inverse (Function.update f a none) (Function.update g b none) := by
  intro x y
  rw [Function.update_apply, Function.update_apply]
  by_cases hx : x = a
  · rw [if_pos hx]
    constructor
    · intro hnone
      cases hnone
    · intro hy
      split at hy
      · cases hy
      · rename_i hne
        have hfx := (h x y).mpr hy
        rw [hx, hab] at hfx
        exact absurd (Option.some.inj hfx).symm hne
  · rw [if_neg hx]
    by_cases hy : y = b
    · rw [if_pos hy, hy]
      constructor
      · intro hfx
        have hgb := (h x b).mp hfx
        rw [(h a b).mp hab] at hgb
        exact absurd (Option.some.inj hgb).symm hx
      · intro hnone
        cases hnone
    · rw [if_neg hy]
      exact h x y

end Inverse

end Gpgnet4TA.Lib
