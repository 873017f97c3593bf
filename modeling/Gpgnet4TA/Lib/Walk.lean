import Mathlib.Data.Nat.Notation
import Mathlib.Data.List.Basic

/-!
# Walks over a buffer

A loop goes over a buffer by steps that it reads from the buffer itself. Each round accesses
fields at fixed offsets from where it stands and says how far to go on, and what it finds there.
A walk that stays in bounds is the same thing as a path: a finite chain of rounds, each of which
accesses only what remains and makes a step.
-/

namespace Gpgnet4TA.Lib

structure Field where
  offset : ℕ
  width : ℕ

/-- The accesses of a round, and the step to what comes next; a round without a step leaves
the loop. -/
structure Round (σ : Type) where
  fields : List Field
  next : Option (ℕ × σ)

variable {σ : Type} {round : σ → Option (Round σ)} {remaining : ℕ} {s : σ}

/-- The rounds of a loop with `remaining` bytes to go, each with the bytes that it had to go. -/
def walk (round : σ → Option (Round σ)) : ℕ → ℕ → σ → Option (List (ℕ × Round σ))
  | 0, _, _ => none
  | fuel + 1, remaining, s =>
    if remaining = 0 then some []
    else do
      let r ← round s
      match r.next with
      | none => return [(remaining, r)]
      | some (step, s) =>
        let rounds ← walk round fuel (remaining - step) s
        return (remaining, r) :: rounds

/-- No access ends behind what remains, and a step is one of at least a byte. -/
structure Round.InBounds (remaining : ℕ) (r : Round σ) : Prop where
  access : ∀ f ∈ r.fields, f.offset + f.width ≤ remaining
  advance : ∀ step s, r.next = some (step, s) → 1 ≤ step

/-- The loop ends, and all its rounds are in bounds. -/
def WalksInBounds (round : σ → Option (Round σ)) (remaining : ℕ) (s : σ) : Prop :=
  ∃ fuel rounds, walk round fuel remaining s = some rounds ∧ ∀ r ∈ rounds, r.2.InBounds r.1

inductive Path (round : σ → Option (Round σ)) : ℕ → σ → Prop
  | finish (s : σ) : Path round 0 s
  | leave {remaining : ℕ} {s : σ} {r : Round σ} (hround : round s = some r) (hin : r.InBounds remaining)
      (hnext : r.next = none) : Path round remaining s
  | goOn {remaining step : ℕ} {s s' : σ} {r : Round σ} (hround : round s = some r)
      (hin : r.InBounds remaining) (hnext : r.next = some (step, s'))
      (hrest : Path round (remaining - step) s') : Path round remaining s

/-! ### One round of a walk -/

theorem walk_finish (fuel : ℕ) (s : σ) : walk round (fuel + 1) 0 s = some [] := rfl

theorem walk_leave {r : Round σ} (fuel : ℕ) (hremaining : remaining ≠ 0) (hround : round s = some r)
    (hnext : r.next = none) : walk round (fuel + 1) remaining s = some [(remaining, r)] := by
  rw [walk, if_neg hremaining, hround, Option.bind_eq_bind, Option.bind_some, hnext]
  rfl

theorem walk_goOn {r : Round σ} {step : ℕ} {s' : σ} (fuel : ℕ) (hremaining : remaining ≠ 0)
    (hround : round s = some r) (hnext : r.next = some (step, s')) :
    walk round (fuel + 1) remaining s =
      (walk round fuel (remaining - step) s').map ((remaining, r) :: ·) := by
  rw [walk, if_neg hremaining, hround, Option.bind_eq_bind, Option.bind_some, hnext]
  show (walk round fuel (remaining - step) s').bind _ = _
  rw [Option.map_eq_bind]
  rfl

/-! ### Walks and paths -/

theorem path_of_walk {fuel : ℕ} {rounds : List (ℕ × Round σ)}
    (h : walk round fuel remaining s = some rounds) (hin : ∀ r ∈ rounds, r.2.InBounds r.1) :
    Path round remaining s := by
  induction fuel generalizing remaining s rounds with
  | zero => cases h
  | succ fuel ih =>
    by_cases hremaining : remaining = 0
    · subst hremaining
      exact .finish s
    · cases hround : round s with
      | none =>
        rw [walk, if_neg hremaining, hround] at h
        cases h
      | some r =>
        cases hnext : r.next with
        | none =>
          rw [walk_leave fuel hremaining hround hnext] at h
          cases h
          exact .leave hround (hin (remaining, r) (List.mem_singleton_self _)) hnext
        | some next =>
          obtain ⟨step, s'⟩ := next
          rw [walk_goOn fuel hremaining hround hnext] at h
          obtain ⟨rest, hrest, rfl⟩ := Option.map_eq_some_iff.mp h
          have hfirst := hin (remaining, r) List.mem_cons_self
          exact .goOn hround hfirst hnext (ih hrest fun x hx => hin x (List.mem_cons_of_mem _ hx))

/-- A path has fewer rounds than there are bytes. -/
theorem Path.walk (h : Path round remaining s) {fuel : ℕ} (hfuel : remaining < fuel) :
    ∃ rounds, walk round fuel remaining s = some rounds ∧ ∀ r ∈ rounds, r.2.InBounds r.1 := by
  induction h generalizing fuel with
  | finish s =>
    obtain ⟨fuel, rfl⟩ : ∃ k, fuel = k + 1 := ⟨fuel - 1, by omega⟩
    exact ⟨[], walk_finish fuel s, fun _ hr => nomatch hr⟩
  | @leave remaining s r hround hin hnext =>
    obtain ⟨fuel, rfl⟩ : ∃ k, fuel = k + 1 := ⟨fuel - 1, by omega⟩
    by_cases hremaining : remaining = 0
    · subst hremaining
      exact ⟨[], walk_finish fuel s, fun _ hr => nomatch hr⟩
    · refine ⟨_, walk_leave fuel hremaining hround hnext, ?_⟩
      intro x hx
      rw [List.mem_singleton.mp hx]
      exact hin
  | @goOn remaining step s s' r hround hin hnext hrest ih =>
    obtain ⟨fuel, rfl⟩ : ∃ k, fuel = k + 1 := ⟨fuel - 1, by omega⟩
    by_cases hremaining : remaining = 0
    · subst hremaining
      exact ⟨[], walk_finish fuel s, fun _ hr => nomatch hr⟩
    · have hstep := hin.advance step s' hnext
      obtain ⟨rounds, hwalk, hall⟩ := ih (by omega : remaining - step < fuel)
      refine ⟨(remaining, r) :: rounds, by rw [walk_goOn fuel hremaining hround hnext, hwalk]; rfl, ?_⟩
      intro x hx
      cases hx with
      | head => exact hin
      | tail _ hx => exact hall x hx

theorem walksInBounds_iff_path : WalksInBounds round remaining s ↔ Path round remaining s := by
  constructor
  · intro h
    obtain ⟨fuel, rounds, hwalk, hin⟩ := h
    exact path_of_walk hwalk hin
  · intro h
    obtain ⟨rounds, hwalk, hin⟩ := h.walk (Nat.lt_succ_self remaining)
    exact ⟨remaining + 1, rounds, hwalk, hin⟩

end Gpgnet4TA.Lib
