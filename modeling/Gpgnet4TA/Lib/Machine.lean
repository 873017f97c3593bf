import Mathlib.Data.Nat.Notation
import Mathlib.Data.List.Basic

/-!
# Machines with outputs

A machine answers an event with a new state and some outputs, or not at all. An observer
that is only told the outputs keeps a state of its own.
-/

namespace Gpgnet4TA.Lib

variable {σ ε ω τ : Type*}

/-- The state after some events, and all outputs on the way. -/
def exec (step : σ → ε → Option (σ × List ω)) : σ → List ε → Option (σ × List ω)
  | s, [] => some (s, [])
  | s, e :: es => (step s e).bind fun r => (exec step r.1 es).map fun q => (q.1, r.2 ++ q.2)

/-- The state of an observer who is told `os`. -/
def observe (tell : τ → ω → Option τ) (t : τ) (os : List ω) : Option τ := os.foldlM tell t

variable {step : σ → ε → Option (σ × List ω)} {tell : τ → ω → Option τ}

theorem exec_cons_some {s s' : σ} {e : ε} {es : List ε} {os : List ω}
    (h : exec step s (e :: es) = some (s', os)) :
    ∃ t o o', step s e = some (t, o) ∧ exec step t es = some (s', o') ∧ os = o ++ o' := by
  obtain ⟨⟨t, o⟩, hstep, hrest⟩ := Option.bind_eq_some_iff.mp h
  obtain ⟨⟨s'', o'⟩, hexec, heq⟩ := Option.map_eq_some_iff.mp hrest
  cases heq
  exact ⟨t, o, o', hstep, hexec, rfl⟩

theorem exec_concat {s s' s'' : σ} {es : List ε} {e : ε} {os o : List ω} (h : exec step s es = some (s', os))
    (hstep : step s' e = some (s'', o)) : exec step s (es ++ [e]) = some (s'', os ++ o) := by
  induction es generalizing s os with
  | nil =>
    cases h
    simp [exec, hstep]
  | cons e' es ih =>
    obtain ⟨t, o1, o2, he, hrest, rfl⟩ := exec_cons_some h
    rw [List.cons_append, exec, he, Option.bind_some, ih hrest]
    simp

/-- Every output has been given by some step of the run. -/
theorem exec_mem {s s' : σ} {es : List ε} {os : List ω} {o : ω} (h : exec step s es = some (s', os)) (ho : o ∈ os) :
    ∃ before e after t os₁ t' os₂, es = before ++ e :: after ∧ exec step s before = some (t, os₁) ∧
      step t e = some (t', os₂) ∧ o ∈ os₂ := by
  induction es generalizing s os with
  | nil =>
    cases h
    cases ho
  | cons e es ih =>
    obtain ⟨t, o1, o2, he, hrest, rfl⟩ := exec_cons_some h
    rcases List.mem_append.mp ho with hfirst | hlater
    · exact ⟨[], e, es, s, [], t, o1, rfl, rfl, he, hfirst⟩
    · obtain ⟨before, e', after, u, os₁, u', os₂, rfl, hbefore, hstep, hmem⟩ := ih hrest hlater
      refine ⟨e :: before, e', after, u, o1 ++ os₁, u', os₂, rfl, ?_, hstep, hmem⟩
      rw [exec, he, Option.bind_some, hbefore]
      rfl

/-- What holds of the history, the outputs and the state at the start and after every step,
holds after a run. -/
theorem exec_invariant {P : List ε → List ω → σ → Prop}
    (hstep : ∀ es os s e s' o, P es os s → step s e = some (s', o) → P (es ++ [e]) (os ++ o) s')
    (es past : List ε) (before : List ω) {os : List ω} {s s' : σ} (h0 : P past before s)
    (h : exec step s es = some (s', os)) : P (past ++ es) (before ++ os) s' := by
  induction es generalizing s past before os with
  | nil =>
    cases h
    rw [List.append_nil, List.append_nil]
    exact h0
  | cons e es ih =>
    obtain ⟨t, o, o', he, hrest, rfl⟩ := exec_cons_some h
    have h1 := ih (past ++ [e]) (before ++ o) (hstep past before s e t o h0 he) hrest
    rwa [List.append_assoc, List.append_assoc] at h1

theorem observe_append (t : τ) (os os' : List ω) :
    observe tell t (os ++ os') = (observe tell t os).bind fun t => observe tell t os' :=
  List.foldlM_append

/-- An observer that each step keeps in the state `abs` knows it after every run. -/
theorem observe_exec (abs : σ → τ) (I : σ → Prop)
    (hstep : ∀ s e s' o, I s → step s e = some (s', o) → I s' ∧ observe tell (abs s) o = some (abs s'))
    (es : List ε) {s s' : σ} {os : List ω} (h0 : I s) (h : exec step s es = some (s', os)) :
    observe tell (abs s) os = some (abs s') := by
  have hall := exec_invariant (P := fun _ os t => I t ∧ observe tell (abs s) os = some (abs t))
    (fun es os t e t' o ht he => by
      obtain ⟨hI, hobs⟩ := hstep t e t' o ht.1 he
      refine ⟨hI, ?_⟩
      rw [observe_append, ht.2]
      exact hobs)
    es [] [] ⟨h0, rfl⟩ h
  exact hall.2

end Gpgnet4TA.Lib
