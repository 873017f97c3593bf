import Gpgnet4TA.Lib.Run

/-!
# Infinite executions

An execution never ends; what happens in it again and again is said with `∃ᶠ`, what
holds from some moment on with `∀ᶠ`, both along `Filter.atTop`.
-/

namespace Gpgnet4TA.Lib
open Filter

variable {σ ε : Type*} {step : σ → ε → Option σ} {x : ℕ → σ} {ev : ℕ → ε}

/-- The states `x` follow each other by the events `ev`. -/
def Execution (step : σ → ε → Option σ) (x : ℕ → σ) (ev : ℕ → ε) : Prop :=
  ∀ n, step (x n) (ev n) = some (x (n + 1))

theorem Execution.runs (h : Execution step x ev) (n : ℕ) : Runs step (fun _ _ => True) (x 0) (x n) := by
  induction n with
  | zero => exact Relation.ReflTransGen.refl
  | succ n ih => exact Relation.ReflTransGen.tail ih ⟨ev n, trivial, h n⟩

/-- The states of an execution that goes on for ever with `next`, which picks the event and
the state after it. -/
theorem Execution.of_next (next : ℕ → σ → ε × σ) (s : σ) {I : σ → Prop} (h0 : I s)
    (hnext : ∀ n t, I t → step t (next n t).1 = some (next n t).2 ∧ I (next n t).2) :
    ∃ x ev, x 0 = s ∧ Execution step x ev ∧ (∀ n, I (x n)) ∧ ∀ n, ev n = (next n (x n)).1 := by
  let x : ℕ → σ := fun n => Nat.rec s (fun n t => (next n t).2) n
  have hI : ∀ n, I (x n) := by
    intro n
    induction n with
    | zero => exact h0
    | succ n ih => exact (hnext n (x n) ih).2
  exact ⟨x, fun n => (next n (x n)).1, rfl, fun n => (hnext n (x n) (hI n)).1, hI, fun _ => rfl⟩

/-- `a`, then what `x` lists. -/
def prepend {α : Type*} (a : α) (x : ℕ → α) : ℕ → α
  | 0 => a
  | n + 1 => x n

theorem Execution.prepend (h : Execution step x ev) {s : σ} {e : ε} (hs : step s e = some (x 0)) :
    Execution step (prepend s x) (prepend e ev)
  | 0 => hs
  | n + 1 => h n

theorem map_range_prepend {α : Type*} (a : α) (x : ℕ → α) (n : ℕ) :
    (List.range (n + 1)).map (prepend a x) = a :: (List.range n).map x := by
  rw [List.range_succ_eq_map, List.map_cons, List.map_map]
  rfl

theorem stays {P : ℕ → Prop} {k : ℕ} (hs : ∀ n, k ≤ n → P n → P (n + 1)) {n m : ℕ} (hk : k ≤ n)
    (hnm : n ≤ m) (hn : P n) : P m := by
  induction m, hnm using Nat.le_induction with
  | base => exact hn
  | succ m hm ih => exact hs m (by omega) ih

/-- What does not come back once it has gone, and cannot be there from some moment on without
being answered again and again, goes. -/
theorem eventually_not {P : ℕ → Prop} {k : ℕ} (hgone : ∀ n, k ≤ n → ¬ P n → ¬ P (n + 1))
    (hanswer : (∀ n, k ≤ n → P n) → ∃ᶠ n in atTop, ¬ P n) : ∀ᶠ n in atTop, ¬ P n := by
  by_cases h : ∀ n, k ≤ n → P n
  · obtain ⟨n, hn, hp⟩ := frequently_atTop.mp (hanswer h) k
    exact absurd (h n hn) hp
  · push Not at h
    obtain ⟨n, hn, hp⟩ := h
    exact eventually_atTop.mpr ⟨n, fun m hm => stays (P := fun n => ¬ P n) hgone hn hm hp⟩

/-- What happens again and again and is seen one step later is seen again and again. -/
theorem frequently_succ {P Q : ℕ → Prop} (h : ∃ᶠ n in atTop, P n) (hpq : ∀ n, P n → Q (n + 1)) :
    ∃ᶠ n in atTop, Q n := by
  rw [frequently_atTop] at h ⊢
  intro a
  obtain ⟨b, hb, hp⟩ := h a
  exact ⟨b + 1, by omega, hpq b hp⟩

/-- What happens again and again also does when the first step is left out. -/
theorem frequently_of_succ {P Q : ℕ → Prop} (h : ∃ᶠ n in atTop, Q n) (hqp : ∀ n, Q (n + 1) → P n) :
    ∃ᶠ n in atTop, P n := by
  rw [frequently_atTop] at h ⊢
  intro a
  obtain ⟨b, hb, hq⟩ := h (a + 1)
  obtain ⟨c, rfl⟩ : ∃ c, b = c + 1 := ⟨b - 1, by omega⟩
  exact ⟨c, by omega, hqp c hq⟩

end Gpgnet4TA.Lib
