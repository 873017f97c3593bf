import Mathlib

/-!
# Selective repeat over a network that loses, duplicates, delays and reorders

One direction of a connection, over an arbitrary type of fragments. The sender
numbers its fragments from 1 and keeps each until it is acknowledged; the
receiver keeps what arrives until it can be handed over in order. What has been
put on the network stays there: a lost datagram is one that is never received,
a duplicate is one that is received again.
-/

namespace Gpgnet4TA.Lib.Arq

variable {F : Type*}

structure Channel (F : Type*) where
  pushed : List F
  unacked : ℕ → Option F
  sent : Set (ℕ × F)
  acked : Set ℕ
  held : ℕ → Option F
  popped : List F

def Channel.init : Channel F := ⟨[], fun _ => none, ∅, ∅, fun _ => none, []⟩

namespace Channel

def push (c : Channel F) (f : F) : Channel F :=
  { c with
    pushed := c.pushed ++ [f]
    unacked := Function.update c.unacked (c.pushed.length + 1) (some f) }

def send (c : Channel F) (seq : ℕ) (f : F) : Channel F := { c with sent := insert (seq, f) c.sent }

def receive (c : Channel F) (seq : ℕ) (f : F) : Channel F :=
  { c with
    held := if c.popped.length < seq then Function.update c.held seq (some f) else c.held
    acked := insert seq c.acked }

def pop (c : Channel F) (f : F) : Channel F :=
  { c with
    held := Function.update c.held (c.popped.length + 1) none
    popped := c.popped ++ [f] }

def ack (c : Channel F) (seq : ℕ) : Channel F :=
  { c with unacked := Function.update c.unacked seq none }

/-- The moves of the two ends. A fragment is sent and sent again only while the
sender keeps it; an acknowledgement is produced by every reception. -/
inductive Step : Channel F → Channel F → Prop
  | push (c : Channel F) (f : F) : Step c (c.push f)
  | send (c : Channel F) (seq : ℕ) (f : F) (h : c.unacked seq = some f) : Step c (c.send seq f)
  | receive (c : Channel F) (seq : ℕ) (f : F) (h : (seq, f) ∈ c.sent) : Step c (c.receive seq f)
  | pop (c : Channel F) (f : F) (h : c.held (c.popped.length + 1) = some f) : Step c (c.pop f)
  | ack (c : Channel F) (seq : ℕ) (h : seq ∈ c.acked) : Step c (c.ack seq)

/-- The receiver starts again with nothing; what it had acknowledged does not count any more. -/
def restart (c : Channel F) : Channel F := { c with acked := ∅, held := fun _ => none, popped := [] }

inductive Reachable : Channel F → Prop
  | init : Reachable Channel.init
  | step {c c' : Channel F} (h : Reachable c) (hs : Step c c') : Reachable c'
  | restart {c : Channel F} (h : Reachable c) : Reachable c.restart

theorem Reachable.steps {c c' : Channel F} (h : c.Reachable)
    (hs : Relation.ReflTransGen Step c c') : c'.Reachable := by
  induction hs with
  | refl => exact h
  | tail _ hs ih => exact ih.step hs

/-- The inductive invariant: every copy of a fragment, wherever it is, is the
fragment pushed under that number, and an acknowledged number has arrived. -/
structure Inv (c : Channel F) : Prop where
  unacked_pushed : ∀ seq f, c.unacked seq = some f → 1 ≤ seq ∧ c.pushed[seq - 1]? = some f
  sent_pushed : ∀ seq f, (seq, f) ∈ c.sent → 1 ≤ seq ∧ c.pushed[seq - 1]? = some f
  held_pushed : ∀ seq f, c.held seq = some f → c.popped.length < seq ∧ c.pushed[seq - 1]? = some f
  acked_arrived : ∀ seq ∈ c.acked, seq ≤ c.popped.length ∨ ∃ f, c.held seq = some f
  popped_prefix : c.popped <+: c.pushed

theorem inv_init : (init : Channel F).Inv where
  unacked_pushed := by intro seq f h; cases h
  sent_pushed := by intro seq f h; cases h
  held_pushed := by intro seq f h; cases h
  acked_arrived := by intro seq h; cases h
  popped_prefix := List.prefix_refl _

/-- Pushing extends what every number stands for. -/
theorem pushed_getElem?_push {c : Channel F} {g f : F} {i : ℕ} (h : c.pushed[i]? = some f) :
    (c.push g).pushed[i]? = some f := by
  obtain ⟨hi, -⟩ := List.getElem?_eq_some_iff.mp h
  show (c.pushed ++ [g])[i]? = some f
  rw [List.getElem?_append_left hi]
  exact h

theorem Inv.push {c : Channel F} (hc : c.Inv) (g : F) : (c.push g).Inv where
  unacked_pushed := by
    intro seq f h
    by_cases hseq : seq = c.pushed.length + 1
    · subst hseq
      have hf : g = f := by simpa [Channel.push] using h
      subst hf
      exact ⟨by omega, by simp [Channel.push]⟩
    · have h' : c.unacked seq = some f := by simpa [Channel.push, hseq] using h
      exact ⟨(hc.unacked_pushed seq f h').1, pushed_getElem?_push (hc.unacked_pushed seq f h').2⟩
  sent_pushed := fun seq f h =>
    ⟨(hc.sent_pushed seq f h).1, pushed_getElem?_push (hc.sent_pushed seq f h).2⟩
  held_pushed := fun seq f h =>
    ⟨(hc.held_pushed seq f h).1, pushed_getElem?_push (hc.held_pushed seq f h).2⟩
  acked_arrived := hc.acked_arrived
  popped_prefix := hc.popped_prefix.trans (List.prefix_append _ _)

theorem Inv.send {c : Channel F} (hc : c.Inv) {seq : ℕ} {f : F} (h : c.unacked seq = some f) :
    (c.send seq f).Inv where
  unacked_pushed := hc.unacked_pushed
  sent_pushed := by
    intro k g hk
    rcases Set.mem_insert_iff.mp hk with hk | hk
    · cases hk
      exact hc.unacked_pushed seq f h
    · exact hc.sent_pushed k g hk
  held_pushed := hc.held_pushed
  acked_arrived := hc.acked_arrived
  popped_prefix := hc.popped_prefix

/-- A reception leaves every number that was held held, with the same fragment. -/
theorem Inv.held_receive {c : Channel F} (hc : c.Inv) {seq : ℕ} {f : F} (h : (seq, f) ∈ c.sent)
    {k : ℕ} {g : F} (hk : c.held k = some g) : (c.receive seq f).held k = some g := by
  show (if c.popped.length < seq then Function.update c.held seq (some f) else c.held) k = some g
  by_cases hseq : c.popped.length < seq
  · rw [if_pos hseq]
    by_cases he : k = seq
    · subst he
      have h1 := (hc.sent_pushed k f h).2
      have h2 := (hc.held_pushed k g hk).2
      rw [h1] at h2
      simpa using h2
    · simpa [Function.update_of_ne he] using hk
  · rw [if_neg hseq]
    exact hk

theorem Inv.receive {c : Channel F} (hc : c.Inv) {seq : ℕ} {f : F} (h : (seq, f) ∈ c.sent) :
    (c.receive seq f).Inv where
  unacked_pushed := hc.unacked_pushed
  sent_pushed := hc.sent_pushed
  held_pushed := by
    intro k g hk
    by_cases hseq : c.popped.length < seq
    · by_cases he : k = seq
      · subst he
        have hg : f = g := by simpa [Channel.receive, hseq] using hk
        subst hg
        exact ⟨hseq, (hc.sent_pushed k f h).2⟩
      · exact hc.held_pushed k g (by simpa [Channel.receive, hseq, he] using hk)
    · exact hc.held_pushed k g (by simpa [Channel.receive, hseq] using hk)
  acked_arrived := by
    intro k hk
    rcases Set.mem_insert_iff.mp hk with hk | hk
    · subst hk
      by_cases hseq : c.popped.length < k
      · exact Or.inr ⟨f, by simp [Channel.receive, hseq]⟩
      · exact Or.inl (Nat.le_of_not_lt hseq)
    · rcases hc.acked_arrived k hk with hk | ⟨g, hg⟩
      · exact Or.inl hk
      · exact Or.inr ⟨g, hc.held_receive h hg⟩
  popped_prefix := hc.popped_prefix

theorem Inv.pop {c : Channel F} (hc : c.Inv) {f : F} (h : c.held (c.popped.length + 1) = some f) :
    (c.pop f).Inv := by
  have hlen : (c.pop f).popped.length = c.popped.length + 1 := by simp [Channel.pop]
  have hnext : c.pushed[c.popped.length]? = some f := (hc.held_pushed _ f h).2
  have hheld : ∀ k, k ≠ c.popped.length + 1 → (c.pop f).held k = c.held k := by
    intro k hk
    simp [Channel.pop, Function.update_of_ne hk]
  have hpref : c.popped ++ [f] <+: c.pushed := by
    obtain ⟨rest, hrest⟩ := hc.popped_prefix
    rw [← hrest] at hnext ⊢
    have hhead : rest.head? = some f := by
      rw [List.getElem?_append_right le_rfl, Nat.sub_self] at hnext
      rw [List.head?_eq_getElem?]
      exact hnext
    obtain ⟨tail, rfl⟩ : ∃ tail, rest = f :: tail := by
      cases rest with
      | nil => simp at hhead
      | cons x tail => exact ⟨tail, by simp_all⟩
    exact ⟨tail, by simp⟩
  refine ⟨hc.unacked_pushed, hc.sent_pushed, ?_, ?_, hpref⟩
  · intro k g hk
    by_cases he : k = c.popped.length + 1
    · subst he
      simp [Channel.pop] at hk
    · rw [hheld k he] at hk
      have hlt := hc.held_pushed k g hk
      rw [hlen]
      exact ⟨by omega, hlt.2⟩
  · intro k hk
    rw [hlen]
    rcases hc.acked_arrived k hk with hk | ⟨g, hg⟩
    · exact Or.inl (by omega)
    · by_cases he : k = c.popped.length + 1
      · exact Or.inl (by omega)
      · exact Or.inr ⟨g, (hheld k he).trans hg⟩

theorem Inv.ack {c : Channel F} (hc : c.Inv) {seq : ℕ} (h : seq ∈ c.acked) : (c.ack seq).Inv where
  unacked_pushed := by
    intro k f hk
    by_cases he : k = seq
    · subst he
      simp [Channel.ack] at hk
    · exact hc.unacked_pushed k f (by simpa [Channel.ack, Function.update_of_ne he] using hk)
  sent_pushed := hc.sent_pushed
  held_pushed := hc.held_pushed
  acked_arrived := hc.acked_arrived
  popped_prefix := hc.popped_prefix

theorem Inv.step {c c' : Channel F} (hc : c.Inv) (h : Step c c') : c'.Inv := by
  cases h with
  | push f => exact hc.push f
  | send seq f h => exact hc.send h
  | receive seq f h => exact hc.receive h
  | pop f h => exact hc.pop h
  | ack seq h => exact hc.ack h

theorem Inv.restart {c : Channel F} (hc : c.Inv) : c.restart.Inv where
  unacked_pushed := hc.unacked_pushed
  sent_pushed := hc.sent_pushed
  held_pushed := by intro seq f h; cases h
  acked_arrived := by intro seq h; cases h
  popped_prefix := List.nil_prefix

theorem Reachable.inv {c : Channel F} (h : c.Reachable) : c.Inv := by
  induction h with
  | init => exact inv_init
  | step _ hs ih => exact ih.step hs
  | restart _ ih => exact ih.restart

/-! ### Nothing is lost while the receiver does not restart -/

/-- Every fragment ever pushed is still with the sender, held, or handed over. -/
def Kept (c : Channel F) : Prop := ∀ seq, 1 ≤ seq → seq ≤ c.pushed.length →
  c.unacked seq = c.pushed[seq - 1]? ∨ c.held seq = c.pushed[seq - 1]? ∨ seq ≤ c.popped.length

theorem kept_init : (init : Channel F).Kept := by
  intro seq h1 h2
  have hlen : seq ≤ 0 := h2
  omega

theorem Kept.push {c : Channel F} (hc : c.Kept) (g : F) : (c.push g).Kept := by
  intro seq h1 h2
  have hlen : seq ≤ c.pushed.length + 1 := by simpa [Channel.push] using h2
  by_cases hseq : seq = c.pushed.length + 1
  · subst hseq
    exact Or.inl (by simp [Channel.push])
  · have hlt : seq - 1 < c.pushed.length := by omega
    have hget : (c.push g).pushed[seq - 1]? = c.pushed[seq - 1]? := by
      simp [Channel.push, List.getElem?_append_left hlt]
    rw [hget]
    simpa [Channel.push, hseq] using hc seq h1 (by omega)

theorem Kept.receive {c : Channel F} (hc : c.Kept) (hi : c.Inv) {seq : ℕ} {f : F}
    (h : (seq, f) ∈ c.sent) : (c.receive seq f).Kept := by
  intro k h1 h2
  rcases hc k h1 h2 with hk | hk | hk
  · exact Or.inl hk
  · have hlt : k - 1 < c.pushed.length := by
      have hle : k ≤ c.pushed.length := h2
      omega
    have hsome : c.pushed[k - 1]? = some c.pushed[k - 1] := List.getElem?_eq_getElem hlt
    refine Or.inr (Or.inl ?_)
    rw [hsome] at hk
    exact (hi.held_receive h hk).trans hsome.symm
  · exact Or.inr (Or.inr hk)

theorem Kept.pop {c : Channel F} (hc : c.Kept) (f : F) : (c.pop f).Kept := by
  intro k h1 h2
  have hlen : (c.pop f).popped.length = c.popped.length + 1 := by simp [Channel.pop]
  rw [hlen]
  rcases hc k h1 h2 with hk | hk | hk
  · exact Or.inl hk
  · by_cases he : k = c.popped.length + 1
    · exact Or.inr (Or.inr (by omega))
    · refine Or.inr (Or.inl ?_)
      simpa [Channel.pop, Function.update_of_ne he] using hk
  · exact Or.inr (Or.inr (by omega))

theorem Kept.ack {c : Channel F} (hc : c.Kept) (hi : c.Inv) {seq : ℕ} (h : seq ∈ c.acked) :
    (c.ack seq).Kept := by
  intro k h1 h2
  by_cases he : k = seq
  · -- the only number the sender forgets has arrived
    subst he
    rcases hi.acked_arrived k h with hk | ⟨f, hf⟩
    · exact Or.inr (Or.inr hk)
    · exact Or.inr (Or.inl (hf.trans (hi.held_pushed k f hf).2.symm))
  · rcases hc k h1 h2 with hk | hk
    · exact Or.inl (by simpa [Channel.ack, Function.update_of_ne he] using hk)
    · exact Or.inr hk

theorem Kept.steps {c c' : Channel F} (hc : c.Kept) (hi : c.Inv)
    (h : Relation.ReflTransGen Step c c') : c'.Kept ∧ c'.Inv := by
  induction h with
  | refl => exact ⟨hc, hi⟩
  | tail _ hs ih =>
    refine ⟨?_, ih.2.step hs⟩
    cases hs with
    | push f => exact ih.1.push f
    | send seq f h => exact ih.1
    | receive seq f h => exact ih.1.receive ih.2 h
    | pop f h => exact ih.1.pop f
    | ack seq h => exact ih.1.ack ih.2 h

/-- A restart of a receiver that has nothing loses nothing. -/
theorem Kept.restart {c : Channel F} (hc : c.Kept) (hp : c.popped = [])
    (hh : ∀ seq, c.held seq = none) : c.restart.Kept := by
  intro seq h1 h2
  have h := hc seq h1 h2
  rw [hp, hh] at h
  exact h

/-- Where the receiver hands over all it can, what is acknowledged is handed over. -/
theorem Kept.popped_of_acked {c : Channel F} (hc : c.Kept) (hdrained : c.held (c.popped.length + 1) = none)
    {k : ℕ} (hk : k ≤ c.pushed.length) (hnone : ∀ seq, seq ≤ k → c.unacked seq = none) :
    k ≤ c.popped.length := by
  by_contra hlt
  have hget : c.pushed[c.popped.length]? ≠ none := by
    rw [List.getElem?_eq_getElem (by omega)]
    exact Option.some_ne_none _
  rcases hc (c.popped.length + 1) (by omega) (by omega) with h | h | h
  · rw [hnone _ (by omega)] at h
    exact hget h.symm
  · rw [hdrained] at h
    exact hget h.symm
  · omega

end Channel

end Gpgnet4TA.Lib.Arq
