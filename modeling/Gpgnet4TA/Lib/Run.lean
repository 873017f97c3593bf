import Mathlib

/-!
# Runs of a partial step function

`step s e = none` means that the event `e` is not possible in `s`. A run whose
events all satisfy a guard `ok` is a chain of the relation `Next`, so that
`Relation.ReflTransGen` gives the induction over runs.
-/

namespace Gpgnet4TA.Lib

variable {σ ε : Type*}

def Next (step : σ → ε → Option σ) (ok : σ → ε → Prop) (s s' : σ) : Prop :=
  ∃ e, ok s e ∧ step s e = some s'

/-- States reached from `s` by events that are allowed where they happen. -/
def Runs (step : σ → ε → Option σ) (ok : σ → ε → Prop) : σ → σ → Prop :=
  Relation.ReflTransGen (Next step ok)

/-- The state after a given list of events. -/
def run (step : σ → ε → Option σ) : σ → List ε → Option σ
  | s, [] => some s
  | s, e :: es => (step s e).bind fun s' => run step s' es

variable {step : σ → ε → Option σ} {ok : σ → ε → Prop}

theorem run_append (s : σ) (es es' : List ε) :
    run step s (es ++ es') = (run step s es).bind fun t => run step t es' := by
  induction es generalizing s with
  | nil => rfl
  | cons e es ih =>
    rw [List.cons_append, run, run, Option.bind_assoc]
    congr 1
    funext t
    exact ih t

/-- What holds at the start and is preserved by every allowed step holds after every run. -/
theorem Runs.invariant {P : σ → Prop} {s s' : σ} (h : Runs step ok s s') (h0 : P s)
    (hs : ∀ t e t', P t → ok t e → step t e = some t' → P t') : P s' := by
  induction h with
  | refl => exact h0
  | tail _ hn ih =>
    obtain ⟨e, he, hst⟩ := hn
    exact hs _ e _ ih he hst

theorem Runs.mono {ok' : σ → ε → Prop} {s s' : σ} (h : Runs step ok s s') (hok : ∀ t e, ok t e → ok' t e) :
    Runs step ok' s s' :=
  Relation.ReflTransGen.mono (fun _ _ ⟨e, he, hs⟩ => ⟨e, hok _ e he, hs⟩) _ _ h

theorem Runs.of_run (es : List ε) {s s' : σ} (h : run step s es = some s')
    (hok : ∀ t e, e ∈ es → ok t e) : Runs step ok s s' := by
  induction es generalizing s with
  | nil =>
    have he : s = s' := Option.some.inj h
    subst he
    exact Relation.ReflTransGen.refl
  | cons e es ih =>
    obtain ⟨t, ht, hrest⟩ := Option.bind_eq_some_iff.mp h
    have hn : Next step ok s t := ⟨e, hok s e (List.mem_cons_self ..), ht⟩
    exact Relation.ReflTransGen.head hn (ih hrest fun t e he => hok t e (List.mem_cons_of_mem _ he))

/-- The steps that the guard allows. -/
def guarded (step : σ → ε → Option σ) (ok : σ → ε → Prop) [∀ s e, Decidable (ok s e)] (s : σ) (e : ε) :
    Option σ :=
  if ok s e then step s e else none

theorem Runs.of_run_guarded [∀ s e, Decidable (ok s e)] (es : List ε) {s s' : σ}
    (h : run (guarded step ok) s es = some s') : Runs step ok s s' := by
  induction es generalizing s with
  | nil =>
    have he : s = s' := Option.some.inj h
    subst he
    exact Relation.ReflTransGen.refl
  | cons e es ih =>
    obtain ⟨t, ht, hrest⟩ := Option.bind_eq_some_iff.mp h
    unfold guarded at ht
    split at ht
    · rename_i hok
      exact Relation.ReflTransGen.head ⟨e, hok, ht⟩ (ih hrest)
    · cases ht

/-! ### What holds along a given list of events -/

/-- Every event of the run of `es` from `s` satisfies `Q` where it happens. -/
def Along (step : σ → ε → Option σ) (Q : σ → ε → Prop) : σ → List ε → Prop
  | _, [] => True
  | s, e :: es => ∀ s', step s e = some s' → Q s e ∧ Along step Q s' es

/-- Every state of the run of `es` from `s` satisfies `P`. -/
def Always (step : σ → ε → Option σ) (P : σ → Prop) : σ → List ε → Prop
  | s, [] => P s
  | s, e :: es => P s ∧ ∀ s', step s e = some s' → Always step P s' es

theorem Always.head {P : σ → Prop} {s : σ} {es : List ε} (h : Always step P s es) : P s := by
  cases es with
  | nil => exact h
  | cons e es => exact h.1

theorem Always.of_run {P : σ → Prop} {s s' : σ} {es : List ε} (h : Always step P s es)
    (hr : run step s es = some s') : P s' := by
  induction es generalizing s with
  | nil =>
    obtain rfl := Option.some.inj hr
    exact h
  | cons e es ih =>
    obtain ⟨t, ht, hrest⟩ := Option.bind_eq_some_iff.mp hr
    exact ih (h.2 t ht) hrest

theorem Along.of_forall {Q : σ → ε → Prop} (h : ∀ s e, Q s e) (s : σ) (es : List ε) :
    Along step Q s es := by
  induction es generalizing s with
  | nil => trivial
  | cons e es ih => exact fun s' _ => ⟨h s e, ih s'⟩

theorem Along.at {Q : σ → ε → Prop} {pre post : List ε} {e : ε} {s t t' : σ}
    (h : Along step Q s (pre ++ e :: post)) (hr : run step s pre = some t) (ht : step t e = some t') : Q t e := by
  induction pre generalizing s with
  | nil =>
    obtain rfl := Option.some.inj hr
    exact (h t' ht).1
  | cons e' pre ih =>
    obtain ⟨s', hs, hrest⟩ := Option.bind_eq_some_iff.mp hr
    exact ih (h s' hs).2 hrest

theorem Runs.of_along {Q : σ → ε → Prop} {es : List ε} {s s' : σ} (h : run step s es = some s')
    (hq : Along step Q s es) : Runs step Q s s' := by
  induction es generalizing s with
  | nil =>
    obtain rfl := Option.some.inj h
    exact Relation.ReflTransGen.refl
  | cons e es ih =>
    obtain ⟨t, ht, hrest⟩ := Option.bind_eq_some_iff.mp h
    obtain ⟨he, hlater⟩ := hq t ht
    exact Relation.ReflTransGen.head ⟨e, he, ht⟩ (ih hrest hlater)

instance Along.decidable {Q : σ → ε → Prop} [∀ s e, Decidable (Q s e)] :
    (s : σ) → (es : List ε) → Decidable (Along step Q s es)
  | _, [] => isTrue trivial
  | s, e :: es =>
    match hs : step s e with
    | none => isTrue fun s' h => by rw [hs] at h; cases h
    | some t =>
      have : Decidable (Along step Q t es) := Along.decidable t es
      decidable_of_iff (Q s e ∧ Along step Q t es)
        ⟨fun h s' h' => by rw [hs] at h'; cases h'; exact h, fun h => h t hs⟩

/-- Where a step keeps `P` exactly if it satisfies `C`, a run keeps `P` exactly if all its steps
satisfy `C`. `I` is what is known of the states with `P` besides. -/
theorem always_iff_along {P I : σ → Prop} {C : σ → ε → Prop}
    (hstep : ∀ s e s', I s → P s → ok s e → step s e = some s' → (P s' ↔ C s e) ∧ (P s' → I s'))
    (es : List ε) {s : σ} (hi : I s) (hp : P s) (hok : Along step ok s es) :
    Always step P s es ↔ Along step C s es := by
  induction es generalizing s with
  | nil => exact ⟨fun _ => trivial, fun _ => hp⟩
  | cons e es ih =>
    constructor
    · intro hx s' hs
      obtain ⟨-, h⟩ := hx
      obtain ⟨he, hrest⟩ := hok s' hs
      obtain ⟨hiff, hkeep⟩ := hstep s e s' hi hp he hs
      have hp' : P s' := (h s' hs).head
      exact ⟨hiff.mp hp', (ih (hkeep hp') hp' hrest).mp (h s' hs)⟩
    · intro h
      refine ⟨hp, fun s' hs => ?_⟩
      obtain ⟨he, hrest⟩ := hok s' hs
      obtain ⟨hiff, hkeep⟩ := hstep s e s' hi hp he hs
      obtain ⟨hC, htail⟩ := h s' hs
      have hp' : P s' := hiff.mpr hC
      exact (ih (hkeep hp') hp' hrest).mpr htail

end Gpgnet4TA.Lib
