import Mathlib.Data.List.Basic

/-!
# What has been so since

`Since P Q es`: an event of `es` satisfies `P`, and none of those after it satisfies `Q`. A set of
things that events put in and take out, and the last event of a kind, are described so.
-/

namespace Gpgnet4TA.Lib

variable {ε : Type*} {P Q : ε → Prop} {es : List ε} {e : ε}

def Since (P Q : ε → Prop) (es : List ε) : Prop :=
  ∃ pre e post, es = pre ++ e :: post ∧ P e ∧ ∀ x ∈ post, ¬ Q x

theorem not_since_nil : ¬ Since P Q [] := by
  intro h
  obtain ⟨pre, e, post, heq, -, -⟩ := h
  cases pre <;> cases heq

theorem since_concat : Since P Q (es ++ [e]) ↔ P e ∨ (Since P Q es ∧ ¬ Q e) := by
  constructor
  · intro h
    obtain ⟨pre, x, post, heq, hP, hQ⟩ := h
    obtain rfl | ⟨post, y, rfl⟩ := List.eq_nil_or_concat post
    · obtain ⟨-, hlast⟩ := List.append_inj' heq rfl
      obtain ⟨rfl, -⟩ := List.cons.inj hlast
      exact .inl hP
    · rw [List.concat_eq_append] at heq hQ
      rw [← List.cons_append, ← List.append_assoc] at heq
      obtain ⟨hinit, hlast⟩ := List.append_inj' heq rfl
      obtain ⟨rfl, -⟩ := List.cons.inj hlast
      have hlater : ∀ x ∈ post, ¬ Q x := fun x hx => hQ x (List.mem_append_left _ hx)
      exact .inr ⟨⟨pre, x, post, hinit, hP, hlater⟩, hQ e (List.mem_append_right _ List.mem_cons_self)⟩
  · intro h
    obtain hP | ⟨⟨pre, x, post, rfl, hP, hQ⟩, hlast⟩ := h
    · exact ⟨es, e, [], rfl, hP, fun x hx => absurd hx List.not_mem_nil⟩
    · refine ⟨pre, x, post ++ [e], by rw [List.append_assoc, List.cons_append], hP, fun y hy => ?_⟩
      obtain hy | hy := List.mem_append.mp hy
      · exact hQ y hy
      · obtain rfl := List.mem_singleton.mp hy
        exact hlast

end Gpgnet4TA.Lib
