import Mathlib.Data.List.DropRight

/-!
# The last elements of a list

What a queue of bounded length holds: the last `n` of the elements that were pushed. Pushing one
more and trimming the front gives the last `n` again.
-/

namespace Gpgnet4TA.Lib

variable {α : Type*} {n : ℕ} {l : List α}

theorem length_rtake (n : ℕ) (l : List α) : (l.rtake n).length = min l.length n := by
  rw [List.rtake, List.length_drop]
  omega

theorem rtake_of_le (h : l.length ≤ n) : l.rtake n = l := by
  rw [List.rtake, Nat.sub_eq_zero_of_le h, List.drop_zero]

/-- The front goes if there are too many. -/
theorem rtake_cons (x : α) (h : n < (x :: l).length) : (x :: l).rtake n = l.rtake n := by
  rw [List.length_cons] at h
  rw [List.rtake, List.rtake, List.length_cons, Nat.succ_sub (by omega), List.drop_succ_cons]

theorem rtake_push (n : ℕ) (l : List α) (x : α) : (l.rtake n ++ [x]).rtake n = (l ++ [x]).rtake n := by
  cases n with
  | zero => rw [List.rtake_zero, List.rtake_zero]
  | succ n =>
    rw [List.rtake_concat_succ, List.rtake_concat_succ]
    congr 1
    rw [List.rtake, List.rtake, List.rtake, List.drop_drop, List.length_drop]
    congr 1
    omega

end Gpgnet4TA.Lib
