import Mathlib

/-!
# Readers that are run again from the start

A reader works on an object and a stream of which only a part has arrived. When it
runs out of input it stops with an exception and keeps in the object what it has
read; the caller runs it again from the start when more has arrived.

`Covers I e E o m r v` says of a piece `r` of such a program that it is responsible for
the positions from `o` to `m` of the expected input `E`: started in an object that has
taken in the input up to `p` (that is what `I p` says), it takes in the rest of its
part and yields `v`, or takes in all there is and stops with `e`. A piece whose part
has been taken in already yields `v` and reads nothing.
-/

namespace Gpgnet4TA.Lib.Resumable

/-- An outcome, the object afterwards, and the unread part of the stream. -/
def Reader (ε β σ α : Type) := σ → List β → Except ε α × σ × List β

variable {ε β σ τ α γ : Type}

namespace Reader

def bind (r : Reader ε β σ α) (k : α → Reader ε β σ γ) : Reader ε β σ γ := fun s is =>
  match r s is with
  | (.ok a, s, is) => k a s is
  | (.error e, s, is) => (.error e, s, is)

instance : Monad (Reader ε β σ) where
  pure a := fun s is => (.ok a, s, is)
  bind := bind

def raise (e : ε) : Reader ε β σ α := fun s is => (.error e, s, is)

/-- Change the object. -/
def update (f : σ → σ) : Reader ε β σ Unit := fun s is => (.ok (), f s, is)

/-- Run a reader of a part of the object. -/
def focus (get : σ → τ) (set : σ → τ → σ) (r : Reader ε β τ α) : Reader ε β σ α := fun s is =>
  match r (get s) is with
  | (a, t, is) => (a, set s t, is)

theorem bind_ok {r : Reader ε β σ α} {k : α → Reader ε β σ γ} {s s' : σ} {is is' : List β} {a : α}
    (h : r s is = (.ok a, s', is')) : (r >>= k) s is = k a s' is' := by
  show bind r k s is = _
  simp only [bind, h]

theorem bind_error {r : Reader ε β σ α} {k : α → Reader ε β σ γ} {s s' : σ} {is is' : List β} {e : ε}
    (h : r s is = (.error e, s', is')) : (r >>= k) s is = (.error e, s', is') := by
  show bind r k s is = _
  simp only [bind, h]

end Reader

structure Covers (I : ℕ → σ → Prop) (e : ε) (E : List β) (o m : ℕ) (r : Reader ε β σ α) (v : α) :
    Prop where
  done : ∀ p s is, I p s → o ≤ p → is.take (m - p) = (E.drop p).take (m - p) → m - p ≤ is.length →
    ∃ s', r s is = (.ok v, s', is.drop (m - p)) ∧ I (max p m) s'
  wait : ∀ p s is, I p s → o ≤ p → is = (E.drop p).take is.length → is.length < m - p →
    ∃ s', r s is = (.error e, s', []) ∧ I (p + is.length) s'

variable {I : ℕ → σ → Prop} {e : ε} {E : List β}

theorem Covers.bind {o n m : ℕ} {r : Reader ε β σ α} {k : α → Reader ε β σ γ} {v : α} {w : γ}
    (hr : Covers I e E o n r v) (hk : Covers I e E n m (k v) w) (hnm : n ≤ m) :
    Covers I e E o m (r >>= k) w where
  done := by
    intro p s is hI ho htake hlen
    have hfirst : is.take (n - p) = (E.drop p).take (n - p) := by
      have h := congrArg (List.take (n - p)) htake
      rw [List.take_take, List.take_take, Nat.min_eq_left (by omega)] at h
      exact h
    obtain ⟨s1, hrun, hI1⟩ := hr.done p s is hI ho hfirst (by omega)
    have hrest : (is.drop (n - p)).take (m - max p n) = (E.drop (max p n)).take (m - max p n) := by
      have h := congrArg (List.drop (n - p)) htake
      rw [List.drop_take, List.drop_take, List.drop_drop] at h
      rw [show m - max p n = m - p - (n - p) by omega, show max p n = p + (n - p) by omega]
      exact h
    obtain ⟨s2, hrun2, hI2⟩ := hk.done (max p n) s1 (is.drop (n - p)) hI1 (by omega) hrest
      (by rw [List.length_drop]; omega)
    refine ⟨s2, ?_, by rw [show max p m = max (max p n) m by omega]; exact hI2⟩
    rw [Reader.bind_ok hrun, hrun2, List.drop_drop]
    congr 3
    omega
  wait := by
    intro p s is hI ho htake hlen
    by_cases hn : is.length < n - p
    · obtain ⟨s1, hrun, hI1⟩ := hr.wait p s is hI ho htake hn
      exact ⟨s1, Reader.bind_error hrun, hI1⟩
    · have hfirst : is.take (n - p) = (E.drop p).take (n - p) := by
        have h := congrArg (List.take (n - p)) htake
        rw [List.take_take, Nat.min_eq_left (by omega)] at h
        exact h
      obtain ⟨s1, hrun, hI1⟩ := hr.done p s is hI ho hfirst (by omega)
      have hrest : is.drop (n - p) =
          (E.drop (max p n)).take (is.drop (n - p)).length := by
        have h := congrArg (List.drop (n - p)) htake
        rw [List.drop_take, List.drop_drop] at h
        rw [List.length_drop, show max p n = p + (n - p) by omega]
        exact h
      obtain ⟨s2, hrun2, hI2⟩ := hk.wait (max p n) s1 (is.drop (n - p)) hI1 (by omega) hrest
        (by rw [List.length_drop]; omega)
      refine ⟨s2, ?_, ?_⟩
      · rw [Reader.bind_ok hrun, hrun2]
      · rw [List.length_drop] at hI2
        rw [show p + is.length = max p n + (is.length - (n - p)) by omega]
        exact hI2

/-- A piece that reads nothing. -/
theorem Covers.pure {o : ℕ} (v : α) : Covers I e E o o (Pure.pure v : Reader ε β σ α) v where
  done := by
    intro p s is hI ho _ _
    refine ⟨s, ?_, by rw [Nat.max_eq_left ho]; exact hI⟩
    rw [show o - p = 0 by omega]
    rfl
  wait := by
    intro p s is _ ho _ hlen
    omega

/-- A reader that first brings the object into a shape it needs. -/
theorem Covers.prepare {I' : ℕ → σ → Prop} {f : σ → σ} {o m : ℕ} {r : Reader ε β σ α} {v : α}
    (hr : Covers I' e E o m r v) (hf : ∀ p s, I p s → o ≤ p → I' p (f s))
    (hback : ∀ p s, I' p s → I p s) :
    Covers I e E o m (do Reader.update f; r) v where
  done := by
    intro p s is hI ho htake hlen
    obtain ⟨s', hrun, hI'⟩ := hr.done p (f s) is (hf p s hI ho) ho htake hlen
    exact ⟨s', hrun, hback _ _ hI'⟩
  wait := by
    intro p s is hI ho htake hlen
    obtain ⟨s', hrun, hI'⟩ := hr.wait p (f s) is (hf p s hI ho) ho htake hlen
    exact ⟨s', hrun, hback _ _ hI'⟩

/-- A reader of a part of the object. -/
theorem Covers.focus {J : ℕ → τ → Prop} {get : σ → τ} {set : σ → τ → σ} {o m : ℕ}
    {r : Reader ε β τ α} {v : α} (hr : Covers J e E o m r v)
    (hget : ∀ p s, I p s → o ≤ p → J p (get s))
    (hset : ∀ p p' s t, I p s → o ≤ p → p ≤ p' → p' ≤ max p m → J p' t → I p' (set s t)) :
    Covers I e E o m (Reader.focus get set r) v where
  done := by
    intro p s is hI ho htake hlen
    obtain ⟨t, hrun, hJ⟩ := hr.done p (get s) is (hget p s hI ho) ho htake hlen
    refine ⟨set s t, ?_, hset p _ s t hI ho (by omega) (by omega) hJ⟩
    simp only [Reader.focus, hrun]
  wait := by
    intro p s is hI ho htake hlen
    obtain ⟨t, hrun, hJ⟩ := hr.wait p (get s) is (hget p s hI ho) ho htake hlen
    refine ⟨set s t, ?_, hset p _ s t hI ho (by omega) (by omega) hJ⟩
    simp only [Reader.focus, hrun]

/-! ### Readers that go on where they stopped

`Steps step e P Q r` says of a reader that does not start again that it does nothing but
take in the items of the stream one by one with `step`: started in `P` it ends in `Q`, or
it takes in all there is and stops with `e`, or `step` fails.
-/

variable {δ : Type}

/-- `step` over the items `l`. -/
def feed (step : σ → β → Except δ σ) (s : σ) (l : List β) : Except δ σ := l.foldlM step s

section feed

variable {step : σ → β → Except δ σ}

@[simp]
theorem feed_nil (s : σ) : feed step s [] = .ok s := rfl

theorem feed_cons (s : σ) (b : β) (l : List β) :
    feed step s (b :: l) = (step s b).bind (feed step · l) := rfl

theorem feed_singleton (s : σ) (b : β) : feed step s [b] = step s b := by
  rw [feed_cons]
  cases step s b <;> rfl

theorem feed_append (s : σ) (l l' : List β) :
    feed step s (l ++ l') = (feed step s l).bind (feed step · l') := by
  simp only [feed, List.foldlM_append]
  rfl

theorem feed_append_ok {s s' : σ} {l : List β} (h : feed step s l = .ok s') (l' : List β) :
    feed step s (l ++ l') = feed step s' l' := by
  rw [feed_append, h]
  rfl

/-- What was taken in before an item at which `step` does not fail was taken in too. -/
theorem feed_prefix {s s' : σ} {l l' : List β} (h : feed step s (l ++ l') = .ok s') :
    ∃ s1, feed step s l = .ok s1 ∧ feed step s1 l' = .ok s' := by
  rw [feed_append] at h
  cases hl : feed step s l with
  | error x =>
    rw [hl] at h
    cases h
  | ok s1 =>
    rw [hl] at h
    exact ⟨s1, rfl, h⟩

/-- An invariant of `step` is one of `feed`. -/
theorem feed_invariant {R : σ → Prop} (hstep : ∀ s b s', R s → step s b = .ok s' → R s') {s s' : σ}
    {l : List β} (h : feed step s l = .ok s') (hs : R s) : R s' := by
  induction l generalizing s with
  | nil =>
    cases h
    exact hs
  | cons b l ih =>
    rw [feed_cons] at h
    cases hb : step s b with
    | error x =>
      rw [hb] at h
      cases h
    | ok s1 =>
      rw [hb] at h
      exact ih h (hstep s b s1 hs hb)

end feed

/-- What a run of a reader may come to; `δ` are the failures of `step`. -/
inductive Outcome (step : σ → β → Except δ σ) (e : ε) (Q : σ → Prop) (s : σ) (is : List β) :
    Except ε α × σ × List β → Prop
  | done {a : α} {s' : σ} {l is' : List β} : is = l ++ is' → feed step s l = .ok s' → Q s' →
      Outcome step e Q s is (.ok a, s', is')
  | wait {s' : σ} : feed step s is = .ok s' → Outcome step e Q s is (.error e, s', [])
  | fail {x : ε} {y : δ} {s' : σ} {l l' is' : List β} : is = l ++ l' → feed step s l = .error y →
      x ≠ e → Outcome step e Q s is (.error x, s', is')

/-- The first item of the stream may be taken in beforehand. -/
theorem Outcome.cons {step : σ → β → Except δ σ} {Q : σ → Prop} {s s' : σ} {b : β} {is : List β}
    {out : Except ε α × σ × List β} (hb : step s b = .ok s') (h : Outcome step e Q s' is out) :
    Outcome step e Q s (b :: is) out := by
  have hfeed : ∀ l, feed step s (b :: l) = feed step s' l := by
    intro l
    rw [feed_cons, hb]
    rfl
  cases h with
  | @done a s2 l is' his hl hQ =>
    exact .done (l := b :: l) (by rw [his]; rfl) (by rw [hfeed, hl]) hQ
  | wait hl => exact .wait (by rw [hfeed, hl])
  | @fail x y s2 l l' is' his hl hx =>
    have hall : b :: is = (b :: l) ++ l' := by rw [his]; rfl
    exact .fail (y := y) hall (by rw [hfeed, hl]) hx

def Steps (step : σ → β → Except δ σ) (e : ε) (P Q : σ → Prop) (r : Reader ε β σ α) : Prop :=
  ∀ s is, P s → Outcome step e Q s is (r s is)

section steps

variable {step : σ → β → Except δ σ} {P Q R : σ → Prop}

theorem Steps.pure (hPQ : ∀ s, P s → Q s) (a : α) :
    Steps step e P Q (Pure.pure a : Reader ε β σ α) :=
  fun s _ hs => .done (l := []) rfl rfl (hPQ s hs)

theorem Steps.bind {r : Reader ε β σ α} {k : α → Reader ε β σ γ} (hr : Steps step e P Q r)
    (hk : ∀ a, Steps step e Q R (k a)) : Steps step e P R (r >>= k) := by
  intro s is hs
  show Outcome step e R s is (Reader.bind r k s is)
  have h := hr s is hs
  unfold Reader.bind
  generalize r s is = out at h
  cases h with
  | @done a s1 l is1 his hl hQ =>
    have h' := hk a s1 is1 hQ
    simp only []
    generalize k a s1 is1 = out' at h'
    cases h' with
    | @done a' s2 l' is2 his' hl' hR =>
      refine .done (l := l ++ l') (by rw [his, his', List.append_assoc]) ?_ hR
      rw [feed_append_ok hl, hl']
    | wait hl' =>
      refine .wait ?_
      rw [his, feed_append_ok hl, hl']
    | @fail x y s2 l' l'' is2 his' hl' hx =>
      have hall : is = (l ++ l') ++ l'' := by rw [his, his', List.append_assoc]
      refine .fail (y := y) hall ?_ hx
      rw [feed_append_ok hl, hl']
  | wait hl => exact .wait hl
  | fail his hl hx => exact .fail his hl hx

/-- A reader that looks at the object first. -/
theorem Steps.ofState {r : σ → Reader ε β σ α} (h : ∀ s, P s → Steps step e (· = s) Q (r s)) :
    Steps step e P Q (fun s is => r s s is) :=
  fun s is hs => h s hs s is rfl

/-- An invariant of `step` may be assumed. -/
theorem Steps.keeps {r : Reader ε β σ α} (hr : Steps step e P Q r)
    (hstep : ∀ s b s', R s → step s b = .ok s' → R s') :
    Steps step e (fun s => P s ∧ R s) (fun s => Q s ∧ R s) r := by
  intro s is hs
  have h := hr s is hs.1
  generalize r s is = out at h ⊢
  cases h with
  | done his hl hQ => exact .done his hl ⟨hQ, feed_invariant hstep hl hs.2⟩
  | wait hl => exact .wait hl
  | fail his hl hx => exact .fail his hl hx

theorem Outcome.mono {s : σ} {is : List β} {out : Except ε α × σ × List β}
    (h : Outcome step e P s is out) (hPQ : ∀ s, P s → Q s) : Outcome step e Q s is out := by
  cases h with
  | done his hl hP => exact .done his hl (hPQ _ hP)
  | wait hl => exact .wait hl
  | fail his hl hx => exact .fail his hl hx

end steps

end Gpgnet4TA.Lib.Resumable
