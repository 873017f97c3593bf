import Gpgnet4TA.App.MonitorInvariant

/-!
# The verdict is right and final

The result is made from the players as they were frozen, at a moment when all players left are
of one frozen team. Afterwards the status and the results stay, and no end is announced again.
-/

namespace Gpgnet4TA.App.GameMonitor2
open Gpgnet4TA.Lib

variable {s s' : GameMonitor2}

/-! ### The army results -/

theorem mem_armyResults {w : ℤ} {r : ArmyResult} (h : r ∈ s.armyResults w) :
    ∃ (k : ℕ) (q : PlayerData), s.frozenPlayers[k]? = some q ∧ r = s.armyResult w q := by
  unfold armyResults at h
  obtain ⟨⟨k, q⟩, hmem, rfl⟩ := List.mem_map.mp h
  exact ⟨k, q, Table.mem_toList.mp (List.mem_filter.mp hmem).1, rfl⟩

/-- An active player's entry in the results is the only one with its army. -/
theorem filter_armyResults (hn : s.frozenPlayers.Numbers) (w : ℤ) {k : ℕ} {q : PlayerData}
    (hq : s.frozenPlayers[k]? = some q) (hact : q.isActive = true) :
    (s.armyResults w).filter (fun r => r.army = q.armyNumber) = [s.armyResult w q] := by
  obtain ⟨harmy, hteam⟩ := hn.active k q hq hact
  have hsingle : s.frozenPlayers.toList.filter (fun kp => decide (kp.2.armyNumber = q.armyNumber) &&
      !(kp.2.armyNumber == 0 || kp.2.teamNumber == 0 || kp.2.isWatcher)) = [(k, q)] := by
    refine Table.filter_eq_singleton hq _ ?_
    intro a p hp
    simp only [Bool.and_eq_true, decide_eq_true_eq]
    constructor
    · intro h
      obtain ⟨heq, -⟩ := h
      exact hn.distinct a k p q hp hq heq (by omega)
    · intro h
      obtain rfl := h
      have hpq : p = q := Option.some.inj (hp.symm.trans hq)
      have h1 : ¬ p.armyNumber = 0 := by rw [hpq]; omega
      have h2 : ¬ p.teamNumber = 0 := by rw [hpq]; omega
      have h3 : p.isWatcher = false := by rw [hpq]; exact ((isActive_iff q).mp hact).1
      exact ⟨by rw [hpq], by simp [h1, h2, h3]⟩
  unfold armyResults
  rw [List.filter_map, List.filter_filter]
  show List.map _ (s.frozenPlayers.toList.filter (fun kp => decide (kp.2.armyNumber = q.armyNumber) && _)) = _
  rw [hsingle]
  rfl

/-! ### The moment of the verdict -/

theorem Move.not_ready (h : Move s s') (hs : s.gameResult.status ≠ .READY_RESULT) :
    s'.gameResult.status ≠ .READY_RESULT := by
  cases h with
  | lobby => exact hs
  | kept => exact hs
  | renumbered => exact hs
  | freeze => exact hs
  | void _ hw hl =>
    cases hl with
    | again => exact hs
    | void r _ _ _ hr =>
      show r.status ≠ .READY_RESULT
      rw [hr]
      decide
    | ready _ _ _ hpos => exact absurd hpos (not_le.mpr hw)

theorem moves_not_ready (h : Relation.ReflTransGen Move s s')
    (hs : s.gameResult.status ≠ .READY_RESULT) : s'.gameResult.status ≠ .READY_RESULT := by
  induction h with
  | refl => exact hs
  | tail _ hm ih => exact hm.not_ready ih

theorem Judged.ready (h : Judged s s') (hs : s.gameResult.status ≠ .READY_RESULT)
    (hs' : s'.gameResult.status = .READY_RESULT) :
    ∃ w tick cs, Verdict s (some w) ∧ 0 ≤ w ∧
      s' = s.withResult ⟨.READY_RESULT, s.armyResults w, tick⟩ cs := by
  cases h with
  | same => exact absurd hs' hs
  | deferred r _ _ hr _ => exact absurd (hr.symm.trans hs') hs
  | latched w _ hv hl =>
    cases hl with
    | again => exact absurd hs' hs
    | void r _ _ _ hr => exact absurd (hr.symm.trans hs') (by decide)
    | ready tick cs _ hpos _ => exact ⟨w, tick, cs, hv hpos, hpos, rfl⟩

/-- The result is right for the players left. -/
structure RightResult (s : GameMonitor2) : Prop where
  draw : (∀ k, ¬ s.Active k) → ∀ r ∈ s.gameResult.results, r.score = 0
  won : (∃ k, s.Active k) → ∃ w : ℕ, 2 ≤ w ∧
    (∀ k, s.Active k → ∃ q : PlayerData, s.frozenPlayers[k]? = some q ∧ q.teamNumber = w) ∧
    (∀ r ∈ s.gameResult.results, ∃ (k : ℕ) (q : PlayerData), s.frozenPlayers[k]? = some q ∧
      r = ⟨q.armyNumber, q.slotNumber, q.name, s.playerRealNames q.name, q.teamNumber,
        if q.teamNumber = w then 1 else -1⟩) ∧
    ∀ (k : ℕ) (q : PlayerData), s.Active k → s.frozenPlayers[k]? = some q →
      s.gameResult.results.filter (fun r => r.army = q.armyNumber) =
        [⟨q.armyNumber, q.slotNumber, q.name, s.playerRealNames q.name, q.teamNumber, 1⟩]

theorem score_team {u : ℕ} (hu : 2 ≤ u) (team : ℕ) :
    score (u : ℤ) team = if team = u then 1 else -1 := by
  unfold score
  rw [if_pos (by omega)]
  simp only [Nat.cast_inj]

theorem rightResult_of_verdict (h : Valid s) {w : ℤ} (hv : Verdict s (some w)) (hw : 0 ≤ w) (tick : ℕ)
    (cs : List Call) : RightResult (s.withResult ⟨.READY_RESULT, s.armyResults w, tick⟩ cs) := by
  cases hv with
  | nobody _ hnone =>
    refine ⟨?_, ?_⟩
    · intro _ r hr
      obtain ⟨k, q, -, rfl⟩ := mem_armyResults hr
      rfl
    · intro hx
      obtain ⟨k, hk⟩ := hx
      exact absurd hk (hnone k)
  | @won k u hstart hk hteam =>
    have hu : 2 ≤ u := by
      obtain ⟨q, hq, rfl⟩ := hteam k hk
      exact ((h.frozenNumbers hstart).active k q hq (h.frozenActive hstart k q hk hq)).2
    refine ⟨fun hnone => absurd hk (hnone k), fun _ => ⟨u, hu, hteam, ?_, ?_⟩⟩
    · intro r hr
      obtain ⟨a, q, hq, rfl⟩ := mem_armyResults hr
      refine ⟨a, q, hq, ?_⟩
      rw [armyResult, score_team hu]
      rfl
    · intro a q ha hq
      have hact := h.frozenActive hstart a q ha hq
      have hteamq : q.teamNumber = u := by
        obtain ⟨q', hq', hu'⟩ := hteam a ha
        have heq : q' = q := Option.some.inj (hq'.symm.trans hq)
        rw [← heq]
        exact hu'
      have hfilter := filter_armyResults (h.frozenNumbers hstart) (u : ℤ) hq hact
      rw [armyResult, score_team hu, if_pos hteamq] at hfilter
      exact hfilter
  | draw => exact absurd hw (by decide)

theorem step_rightResult (h : Valid s) {e : Event} (he : e ≠ .reset) (hstep : s.step e = some s')
    (hs : s.gameResult.status ≠ .READY_RESULT) (hs' : s'.gameResult.status = .READY_RESULT) :
    RightResult s' := by
  rcases step_outcome h.sound hstep with ⟨hreset, -⟩ | ⟨t, hmoves, hj⟩
  · exact absurd hreset he
  · obtain ⟨w, tick, cs, hv, hw, rfl⟩ := hj.ready (moves_not_ready hmoves hs) hs'
    exact rightResult_of_verdict (h.moves hmoves) hv hw tick cs

/-! ### The verdict is final -/

/-- The same status and results, and no end announced in between. -/
structure Stays (s s' : GameMonitor2) : Prop where
  status : s'.gameResult.status = s.gameResult.status
  results : s'.gameResult.results = s.gameResult.results
  calls : ∃ cs, Silent cs ∧ s'.calls = s.calls ++ cs

theorem Stays.refl (s : GameMonitor2) : Stays s s :=
  ⟨rfl, rfl, [], silent_nil, (List.append_nil _).symm⟩

theorem Stays.trans {t : GameMonitor2} (h : Stays s t) (h' : Stays t s') : Stays s s' := by
  obtain ⟨cs, hcs, hcalls⟩ := h.calls
  obtain ⟨cs', hcs', hcalls'⟩ := h'.calls
  refine ⟨h'.status.trans h.status, h'.results.trans h.results, cs ++ cs', hcs.append hcs', ?_⟩
  rw [hcalls', hcalls, List.append_assoc]

theorem Latch.stays {w : ℤ} (h : Latch s w s') (hs : s.gameResult.status ≠ .NOT_READY) : Stays s s' := by
  cases h with
  | again => exact .refl s
  | void _ _ hno => exact absurd hno hs
  | ready _ _ hno => exact absurd hno hs

theorem Move.stays (h : Move s s') (hs : s.gameResult.status ≠ .NOT_READY) : Stays s s' := by
  cases h with
  | lobby _ _ _ hcs => exact ⟨rfl, rfl, _, hcs, rfl⟩
  | kept _ _ hcs => exact ⟨rfl, rfl, _, hcs, rfl⟩
  | renumbered _ hcs => exact ⟨rfl, rfl, _, hcs, rfl⟩
  | freeze => exact ⟨rfl, rfl, [], silent_nil, (List.append_nil _).symm⟩
  | void _ _ hl => exact hl.stays hs

theorem moves_stay (h : Relation.ReflTransGen Move s s') (hs : s.gameResult.status ≠ .NOT_READY) :
    Stays s s' := by
  induction h with
  | refl => exact .refl s
  | tail _ hm ih =>
    refine ih.trans (hm.stays ?_)
    rw [ih.status]
    exact hs

theorem Judged.stays (h : Judged s s') (hs : s.gameResult.status ≠ .NOT_READY) : Stays s s' := by
  cases h with
  | same => exact .refl s
  | deferred r _ _ hstatus hresults => exact ⟨hstatus, hresults, [], silent_nil, rfl⟩
  | latched w _ _ hl => exact hl.stays hs

theorem step_stays (h : Valid s) {e : Event} (he : e ≠ .reset) (hstep : s.step e = some s')
    (hs : s.gameResult.status ≠ .NOT_READY) : Stays s s' := by
  rcases step_outcome h.sound hstep with ⟨hreset, -⟩ | ⟨t, hmoves, hj⟩
  · exact absurd hreset he
  · have hstay := moves_stay hmoves hs
    refine hstay.trans (hj.stays ?_)
    rw [hstay.status]
    exact hs

/-- Events of one game. -/
def InGame (_ : GameMonitor2) (e : Event) : Prop := e ≠ .reset

theorem runs_stay (h : Valid s) (hr : Runs step InGame s s') (hs : s.gameResult.status ≠ .NOT_READY) :
    Stays s s' := by
  have hboth : Valid s' ∧ Stays s s' := by
    refine hr.invariant (P := fun t => Valid t ∧ Stays s t) ⟨h, .refl s⟩ ?_
    intro t e t' hx he hstep
    obtain ⟨hv, hstay⟩ := hx
    refine ⟨hv.outcome (step_outcome hv.sound hstep), hstay.trans (step_stays hv he hstep ?_)⟩
    rw [hstay.status]
    exact hs
  exact hboth.2

/-- In every run, a result that becomes ready is right for the players left at that moment;
and once there is a result, it stays and no end is announced any more. -/
theorem verdict_right_and_final {c : Setup} (hhost : c.hostPlayerName ≠ []) (hlocal : c.localPlayerName ≠ [])
    (hr : Runs step InGame (.new c) s) :
    (∀ e s', e ≠ .reset → s.step e = some s' → s.gameResult.status ≠ .READY_RESULT →
      s'.gameResult.status = .READY_RESULT → RightResult s') ∧
    (s.gameResult.status ≠ .NOT_READY → ∀ s', Runs step InGame s s' →
      s'.gameResult.status = s.gameResult.status ∧ s'.gameResult.results = s.gameResult.results ∧
      ∃ cs, s'.calls = s.calls ++ cs ∧ ∀ r, Call.onGameEnded r ∉ cs) := by
  have hv : Valid s := (valid_new hhost hlocal).runs hr
  refine ⟨fun e s' he hstep hs hs' => step_rightResult hv he hstep hs hs', ?_⟩
  intro hs s' hr'
  obtain ⟨hstatus, hresults, cs, hcs, hcalls⟩ := runs_stay hv hr' hs
  refine ⟨hstatus, hresults, cs, hcalls, ?_⟩
  intro r hmem
  have hsilent := hcs _ hmem
  cases hsilent

/-- In the duel `b` loses its commander, and the result is ready when the draw is out of reach. -/
theorem verdict_right_and_final_duel : ∃ s s' : GameMonitor2, s.step (.gameTick 1 17) = some s' ∧
    s.gameResult.status = .NOT_READY ∧ s'.gameResult.status = .READY_RESULT ∧ RightResult s' ∧
    ∀ t, Runs step InGame s' t → t.gameResult.results = s'.gameResult.results := by
  have hone : (run step (.new duel) (duelEvents ++ [.unitDied 2 101])).map
      (fun s : GameMonitor2 => (s.gameResult.status, (s.step (.gameTick 1 17)).map (·.gameResult.status))) =
        some (.NOT_READY, some .READY_RESULT) := by decide +kernel
  obtain ⟨s, hrun, hs⟩ := Option.map_eq_some_iff.mp hone
  obtain ⟨hnot, hready⟩ := Prod.mk.inj hs
  obtain ⟨s', hstep, hs'⟩ := Option.map_eq_some_iff.mp hready
  have hreach : Runs step InGame (.new duel) s := by
    refine Runs.of_run _ hrun ?_
    intro t e he heq
    obtain rfl := heq
    simp [duelEvents] at he
  have htick : Event.gameTick 1 17 ≠ .reset := nofun
  have hreach' : Runs step InGame (.new duel) s' := hreach.tail ⟨_, htick, hstep⟩
  have hhost : duel.hostPlayerName ≠ [] := by decide
  refine ⟨s, s', hstep, hnot, hs', ?_, ?_⟩
  · exact (verdict_right_and_final hhost hhost hreach).1 _ s' htick hstep (by rw [hnot]; decide) hs'
  · intro t ht
    exact ((verdict_right_and_final hhost hhost hreach').2 (by rw [hs']; decide) t ht).2.1

end Gpgnet4TA.App.GameMonitor2
