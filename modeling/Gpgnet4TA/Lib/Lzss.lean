import Mathlib

/-!
# Literals and back references

A token is a literal or a reference to `len` items that start at position `pos`
of what has been produced so far. A reference may reach beyond the end of that:
its items are produced one at a time.
-/

namespace Gpgnet4TA.Lib.Lzss

variable {α : Type*}

inductive Token (α : Type*) where
  | lit (x : α)
  | copy (pos len : ℕ)

def Token.isCopy : Token α → Bool
  | .lit _ => false
  | .copy _ _ => true

variable (d : α)

/-- Append `len` items from `pos` on; `d` stands for an item that is not there. -/
def copyFrom (pos : ℕ) : ℕ → List α → List α
  | 0, acc => acc
  | len + 1, acc => copyFrom (pos + 1) len (acc ++ [acc.getD pos d])

def expandToken (acc : List α) : Token α → List α
  | .lit x => acc ++ [x]
  | .copy pos len => copyFrom d pos len acc

def expand (acc : List α) (ts : List (Token α)) : List α := ts.foldl (expandToken d) acc

theorem expand_append (acc : List α) (ts us : List (Token α)) :
    expand d acc (ts ++ us) = expand d (expand d acc ts) us := by
  simp [expand]

/-- A reference that agrees with the target continues a prefix of it. -/
theorem copyFrom_take {target : List α} (len : ℕ) {pos n : ℕ} (hpos : pos < n)
    (hlen : n + len ≤ target.length)
    (hmatch : ∀ j < len, target[pos + j]? = target[n + j]?) :
    copyFrom d pos len (target.take n) = target.take (n + len) := by
  induction len generalizing pos n with
  | zero => rfl
  | succ len ih =>
    have hn : n < target.length := by omega
    have hget : target[pos]? = some target[n] := by
      have h0 := hmatch 0 (by omega)
      rw [Nat.add_zero, Nat.add_zero, List.getElem?_eq_getElem hn] at h0
      exact h0
    have hitem : (target.take n).getD pos d = target[n] := by
      rw [List.getD_eq_getElem?_getD, List.getElem?_take_of_lt hpos, hget]
      rfl
    have hstep : copyFrom d pos (len + 1) (target.take n) =
        copyFrom d (pos + 1) len (target.take (n + 1)) := by
      rw [copyFrom, hitem, List.take_append_getElem]
    rw [hstep, ih (by omega) (by omega)]
    · congr 1
      omega
    · intro j hj
      have h1 := hmatch (j + 1) (by omega)
      rw [show pos + 1 + j = pos + (j + 1) by omega, show n + 1 + j = n + (j + 1) by omega]
      exact h1

/-- A run of one item is a reference to the item before it. -/
theorem run_match {target : List α} {n len : ℕ} (hn : 0 < n)
    (hrun : ∀ j < len, target[n + j]? = target[n - 1]?) :
    ∀ j < len, target[n - 1 + j]? = target[n + j]? := by
  intro j hj
  rw [hrun j hj]
  cases j with
  | zero => rfl
  | succ j =>
    rw [show n - 1 + (j + 1) = n + j by omega]
    exact hrun j (by omega)

end Gpgnet4TA.Lib.Lzss
