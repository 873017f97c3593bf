import Mathlib

/-!
# Messages cut into marked pieces

A message `(kind, bytes)` travels as pieces of which all but the last carry the
mark `more`. The reader appends every piece to a buffer and delivers the buffer
under the kind of the first piece that is not marked.
-/

namespace Gpgnet4TA.Lib.Reassembly

variable {κ β : Type*} [DecidableEq κ] (more : κ)

/-- The reader: the open buffer and the messages delivered so far. -/
def step (s : List β × List (κ × List β)) (p : κ × List β) : List β × List (κ × List β) :=
  if p.1 = more then (s.1 ++ p.2, s.2) else ([], s.2 ++ [(p.1, s.1 ++ p.2)])

def read (ps : List (κ × List β)) : List β × List (κ × List β) := ps.foldl (step more) ([], [])

theorem read_append_singleton (ps : List (κ × List β)) (p : κ × List β) :
    read more (ps ++ [p]) = step more (read more ps) p := by
  simp [read]

theorem foldl_step_prefix (ps : List (κ × List β)) (s : List β × List (κ × List β)) :
    s.2 <+: (ps.foldl (step more) s).2 := by
  induction ps generalizing s with
  | nil => exact List.prefix_refl _
  | cons p ps ih =>
    refine List.IsPrefix.trans ?_ (ih (step more s p))
    unfold step
    split
    · exact List.prefix_refl _
    · exact List.prefix_append _ _

/-- What was delivered before plays no role for what follows. -/
theorem foldl_step_out (ps : List (κ × List β)) (r : List β) (out : List (κ × List β)) :
    ps.foldl (step more) (r, out) =
      ((ps.foldl (step more) (r, [])).1, out ++ (ps.foldl (step more) (r, [])).2) := by
  induction ps generalizing r out with
  | nil => simp
  | cons p ps ih =>
    by_cases hp : p.1 = more
    · have hs : ∀ o, step more (r, o) p = (r ++ p.2, o) := by simp [step, hp]
      rw [List.foldl_cons, List.foldl_cons, hs, hs, ih]
    · have hs : ∀ o, step more (r, o) p = ([], o ++ [(p.1, r ++ p.2)]) := by simp [step, hp]
      rw [List.foldl_cons, List.foldl_cons, hs, hs, ih, ih [] ([] ++ _)]
      simp

/-- Reading fewer pieces delivers a prefix. -/
theorem read_prefix {ps qs : List (κ × List β)} (h : ps <+: qs) :
    (read more ps).2 <+: (read more qs).2 := by
  obtain ⟨rest, rfl⟩ := h
  rw [read, read, List.foldl_append]
  exact foldl_step_prefix more rest _

/-- `Pieces kind bytes ps`: the pieces `ps` are one message. -/
inductive Pieces (kind : κ) : List β → List (κ × List β) → Prop
  | last (bs : List β) : Pieces kind bs [(kind, bs)]
  | cons (bs rest : List β) (ps : List (κ × List β)) (h : Pieces kind rest ps) :
      Pieces kind (bs ++ rest) ((more, bs) :: ps)

omit [DecidableEq κ] in
theorem Pieces.kind_eq {kind : κ} {bs : List β} {ps : List (κ × List β)}
    (h : Pieces more kind bs ps) : ∀ p ∈ ps, p.1 = kind ∨ p.1 = more := by
  induction h with
  | last bs =>
    intro p hp
    exact Or.inl (congrArg Prod.fst (List.mem_singleton.mp hp))
  | cons bs rest ps _ ih =>
    intro p hp
    rcases List.mem_cons.mp hp with hp | hp
    · exact Or.inr (congrArg Prod.fst hp)
    · exact ih p hp

theorem Pieces.foldl {kind : κ} (hk : kind ≠ more) {bs : List β} {ps : List (κ × List β)}
    (h : Pieces more kind bs ps) (open_ : List β) (out : List (κ × List β)) :
    ps.foldl (step more) (open_, out) = ([], out ++ [(kind, open_ ++ bs)]) := by
  induction h generalizing open_ with
  | last bs => simp [step, hk]
  | cons bs rest ps _ ih =>
    have hs : step more (open_, out) (more, bs) = (open_ ++ bs, out) := by simp [step]
    rw [List.foldl_cons, hs, ih, List.append_assoc]

/-- Appending the pieces of a message to complete messages completes one more. -/
theorem read_append_pieces {kind : κ} (hk : kind ≠ more) {bs : List β} {qs ps : List (κ × List β)}
    {out : List (κ × List β)} (hq : read more qs = ([], out)) (h : Pieces more kind bs ps) :
    read more (qs ++ ps) = ([], out ++ [(kind, bs)]) := by
  have hfold := h.foldl more hk [] out
  rw [read, List.foldl_append]
  rw [read] at hq
  rw [hq]
  simpa using hfold

end Gpgnet4TA.Lib.Reassembly
