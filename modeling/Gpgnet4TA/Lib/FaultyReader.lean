import Gpgnet4TA.Lib.Reassembly

/-!
# A reader whose deliveries may fail

The reader of marked pieces clears its buffer only after a delivery that succeeds. A flag at
each piece says whether the delivery that it triggers fails. What is delivered is right as
long as nothing is delivered after a failure.
-/

namespace Gpgnet4TA.Lib.Reassembly

variable {κ β : Type*} [DecidableEq κ] (more : κ)

/-- The open buffer, and the messages delivered so far with their outcomes. -/
def faultyStep (s : List β × List ((κ × List β) × Bool)) (p : (κ × List β) × Bool) :
    List β × List ((κ × List β) × Bool) :=
  if p.1.1 = more then (s.1 ++ p.1.2, s.2)
  else (if p.2 then s.1 ++ p.1.2 else [], s.2 ++ [((p.1.1, s.1 ++ p.1.2), p.2)])

theorem faultyStep_more {s : List β × List ((κ × List β) × Bool)} {p : (κ × List β) × Bool}
    (hp : p.1.1 = more) : faultyStep more s p = (s.1 ++ p.1.2, s.2) := if_pos hp

theorem faultyStep_deliver {s : List β × List ((κ × List β) × Bool)} {p : (κ × List β) × Bool}
    (hp : p.1.1 ≠ more) : faultyStep more s p =
      (if p.2 then s.1 ++ p.1.2 else [], s.2 ++ [((p.1.1, s.1 ++ p.1.2), p.2)]) := if_neg hp

def faultyRead (ps : List ((κ × List β) × Bool)) : List β × List ((κ × List β) × Bool) :=
  ps.foldl (faultyStep more) ([], [])

theorem faultyRead_concat (ps : List ((κ × List β) × Bool)) (p : (κ × List β) × Bool) :
    faultyRead more (ps ++ [p]) = faultyStep more (faultyRead more ps) p := by
  simp [faultyRead]

/-- What was delivered before plays no role for what follows. -/
theorem foldl_faultyStep_out (ps : List ((κ × List β) × Bool)) (r : List β)
    (out : List ((κ × List β) × Bool)) : ps.foldl (faultyStep more) (r, out) =
      ((ps.foldl (faultyStep more) (r, [])).1, out ++ (ps.foldl (faultyStep more) (r, [])).2) := by
  induction ps generalizing r out with
  | nil => simp
  | cons p ps ih =>
    by_cases hp : p.1.1 = more
    · rw [List.foldl_cons, List.foldl_cons, faultyStep_more more hp, faultyStep_more more hp, ih]
    · rw [List.foldl_cons, List.foldl_cons, faultyStep_deliver more hp, faultyStep_deliver more hp, ih,
        ih _ ([] ++ _)]
      simp

/-- The last delivery has failed. -/
def Failed (calls : List ((κ × List β) × Bool)) : Prop := ∃ c, calls.getLast? = some c ∧ c.2 = true

/-- All deliveries but the last have succeeded. -/
def OnlyLastFails (calls : List ((κ × List β) × Bool)) : Prop := ∀ c ∈ calls.dropLast, c.2 = false

omit [DecidableEq κ] in
theorem onlyLastFails_concat {calls : List ((κ × List β) × Bool)} {c : (κ × List β) × Bool} :
    OnlyLastFails (calls ++ [c]) ↔ OnlyLastFails calls ∧ ¬ Failed calls := by
  rw [OnlyLastFails, List.dropLast_concat]
  induction calls using List.reverseRecOn with
  | nil => simp [OnlyLastFails, Failed]
  | append_singleton calls d _ =>
    simp only [OnlyLastFails, Failed, List.dropLast_concat, List.getLast?_concat, Option.some.injEq]
    constructor
    · intro h
      refine ⟨fun c hc => h c (List.mem_append_left _ hc), ?_⟩
      intro hx
      obtain ⟨_, rfl, hd⟩ := hx
      rw [h d (by simp)] at hd
      cases hd
    · intro hx c hc
      obtain ⟨hall, hlast⟩ := hx
      rcases List.mem_append.mp hc with hc | hc
      · exact hall c hc
      · rw [List.mem_singleton.mp hc]
        exact Bool.eq_false_iff.mpr fun hd => hlast ⟨d, rfl, hd⟩

omit [DecidableEq κ] in
theorem failed_concat {calls : List ((κ × List β) × Bool)} {c : (κ × List β) × Bool} :
    Failed (calls ++ [c]) ↔ c.2 = true := by
  simp [Failed]

theorem faultyRead_more {ps : List ((κ × List β) × Bool)} {p : (κ × List β) × Bool} (hp : p.1.1 = more) :
    faultyRead more (ps ++ [p]) = ((faultyRead more ps).1 ++ p.1.2, (faultyRead more ps).2) := by
  rw [faultyRead_concat, faultyStep_more more hp]

theorem faultyRead_deliver {ps : List ((κ × List β) × Bool)} {p : (κ × List β) × Bool} (hp : p.1.1 ≠ more) :
    faultyRead more (ps ++ [p]) = (if p.2 then (faultyRead more ps).1 ++ p.1.2 else [],
      (faultyRead more ps).2 ++ [((p.1.1, (faultyRead more ps).1 ++ p.1.2), p.2)]) := by
  rw [faultyRead_concat, faultyStep_deliver more hp]

/-- After a success both readers have the same buffer; after a failure the faulty one has the
message in front of it that it could not deliver. -/
theorem faultyRead_buffer {ps : List ((κ × List β) × Bool)} (hne : ∀ p ∈ ps, p.1.2 ≠ []) :
    (¬ Failed (faultyRead more ps).2 → (faultyRead more ps).1 = (read more (ps.map Prod.fst)).1) ∧
      (Failed (faultyRead more ps).2 → ∃ x, x ≠ [] ∧
        (faultyRead more ps).1 = x ++ (read more (ps.map Prod.fst)).1) := by
  induction ps using List.reverseRecOn with
  | nil => exact ⟨fun _ => rfl, fun h => by obtain ⟨c, hc, -⟩ := h; cases hc⟩
  | append_singleton ps p ih =>
    obtain ⟨ihs, ihf⟩ := ih fun q hq => hne q (List.mem_append_left _ hq)
    rw [List.map_append, List.map_singleton, read_append_singleton]
    by_cases hp : p.1.1 = more
    · rw [faultyRead_more more hp, step, if_pos hp]
      constructor
      · intro h
        show _ ++ _ = _ ++ _
        rw [ihs h]
      · intro h
        obtain ⟨x, hx, he⟩ := ihf h
        exact ⟨x, hx, by rw [he, List.append_assoc]⟩
    · rw [faultyRead_deliver more hp, step, if_neg hp, failed_concat]
      constructor
      · intro h
        exact if_neg h
      · intro h
        refine ⟨(faultyRead more ps).1 ++ p.1.2, ?_, ?_⟩
        · exact List.append_ne_nil_of_right_ne_nil _ (hne p (by simp))
        · rw [List.append_nil]
          exact if_pos h

/-- Everything is delivered as it was sent exactly when nothing is delivered after a failure. -/
theorem faultyRead_eq_read_iff {ps : List ((κ × List β) × Bool)} (hne : ∀ p ∈ ps, p.1.2 ≠ []) :
    (faultyRead more ps).2.map Prod.fst = (read more (ps.map Prod.fst)).2 ↔
      OnlyLastFails (faultyRead more ps).2 := by
  induction ps using List.reverseRecOn with
  | nil => exact iff_of_true rfl (by simp [OnlyLastFails, faultyRead])
  | append_singleton ps p ih =>
    have hps : ∀ q ∈ ps, q.1.2 ≠ [] := fun q hq => hne q (List.mem_append_left _ hq)
    rw [List.map_append, List.map_singleton, read_append_singleton]
    by_cases hp : p.1.1 = more
    · rw [faultyRead_more more hp, step, if_pos hp]
      exact ih hps
    · obtain ⟨hsuccess, hfailure⟩ := faultyRead_buffer more hps
      have hbuffer : (faultyRead more ps).1 = (read more (ps.map Prod.fst)).1 ↔ ¬ Failed (faultyRead more ps).2 := by
        refine ⟨fun he hf => ?_, hsuccess⟩
        obtain ⟨x, hx, hlong⟩ := hfailure hf
        rw [he] at hlong
        exact hx (List.self_eq_append_left.mp hlong)
      rw [faultyRead_deliver more hp, step, if_neg hp, onlyLastFails_concat, ← ih hps, ← hbuffer]
      simp

/-- As many messages are delivered either way. -/
theorem length_faultyRead (ps : List ((κ × List β) × Bool)) :
    (faultyRead more ps).2.length = (read more (ps.map Prod.fst)).2.length := by
  induction ps using List.reverseRecOn with
  | nil => rfl
  | append_singleton ps p ih =>
    rw [List.map_append, List.map_singleton, read_append_singleton]
    by_cases hp : p.1.1 = more
    · rw [faultyRead_more more hp, step, if_pos hp]
      exact ih
    · rw [faultyRead_deliver more hp, step, if_neg hp, List.length_append, List.length_append, ih]
      rfl

end Gpgnet4TA.Lib.Reassembly
