import Gpgnet4TA.App.MonitorInvariant

/-!
# The armies that two instances freeze

Every player runs a monitor of its own, and the packets of different players reach the monitors
in different orders. Alliances and watchers come out the same, since each player's own packets
are in order. The numbers are made from them and from who is dead at the last recount; a
commander that dies before the start causes no recount, so that the order of other packets
decides whether its death counts.
-/

namespace Gpgnet4TA.App
open Gpgnet4TA.Lib

/-- The player whose packet it is, for the events that both instances receive. -/
def Event.source : Event → Option ℕ
  | .status sourceDplayId _ _ _ _ _ _ => some sourceDplayId
  | .alliance subjectDpid _ _ => some subjectDpid
  | .unitDied sourceDplayId _ => some sourceDplayId
  | _ => none

def Event.isJoin : Event → Bool
  | .superEnumPlayerReply _ _ => true
  | .createOrForwardPlayer _ _ _ => true
  | _ => false

/-! ### What a player's own packets say -/

/-- A player's own declarations. -/
structure Own where
  allies : Std.ExtTreeSet ℕ
  isWatcher : Bool

def PlayerData.own (p : PlayerData) : Own := ⟨p.allies, p.isWatcher⟩

/-- The declarations after a packet of that player. -/
def Own.next (known : ℕ → Bool) (o : Own) : Event → Own
  | .status _ _ _ _ _ isWatcher _ => { o with isWatcher }
  | .alliance _ objectDpid isAllied =>
    if known objectDpid then
      { o with
        allies := if isAllied then o.allies.insert objectDpid else o.allies.erase objectDpid }
    else o
  | _ => o

def Own.nextOf (known : ℕ → Bool) (k : ℕ) (o : Own) (e : Event) : Own :=
  if e.source = some k then o.next known e else o

theorem Own.foldl_filter (known : ℕ → Bool) (k : ℕ) (es : List Event) (o : Own) :
    es.foldl (Own.nextOf known k) o = (es.filter fun e => e.source = some k).foldl (Own.next known) o := by
  induction es generalizing o with
  | nil => rfl
  | cons e es ih =>
    rw [List.foldl_cons, ih]
    by_cases he : e.source = some k
    · rw [List.filter_cons_of_pos (by simpa using he), List.foldl_cons, nextOf, if_pos he]
    · rw [List.filter_cons_of_neg (by simpa using he), nextOf, if_neg he]

namespace GameMonitor2

/-! ### Recounts and deaths -/

/-- The event makes the numbers be made anew. -/
def recounts (s : GameMonitor2) : Event → Bool
  | .status sourceDplayId _ _ _ side isWatcher _ =>
    match s.players[sourceDplayId]? with
    | some p => decide (restates p side isWatcher)
    | none => false
  | .alliance subjectDpid objectDpid isAllied =>
    match s.players[subjectDpid]?, s.players[objectDpid]? with
    | some subject, some _ => decide (subject.allies.contains objectDpid ≠ isAllied)
    | _, _ => false
  | _ => false

/-- The player whose commander dies. -/
def loses (s : GameMonitor2) : Event → Option ℕ
  | .unitDied sourceDplayId unitId =>
    if s.players.contains sourceDplayId = true ∧ unitId % s.maxUnits = 1 then some sourceDplayId else none
  | _ => none

/-- The players whose commander has died, and those of them whose death came before the last recount. -/
structure Toll where
  died : List ℕ
  counted : List ℕ

def Toll.next (g : Toll) (s : GameMonitor2) (e : Event) : Toll :=
  ⟨(s.loses e).toList ++ g.died, if s.recounts e then g.died else g.counted⟩

def toll : GameMonitor2 → Toll → List Event → Toll
  | _, g, [] => g
  | s, g, e :: es =>
    match s.step e with
    | some s' => toll s' (g.next s e) es
    | none => g

end GameMonitor2

/-- A player's declarations and numbers. -/
def PlayerData.tallied (p : PlayerData) : Own × ℕ × ℕ := (p.own, p.armyNumber, p.teamNumber)

namespace GameMonitor2

/-- What a packet before the start does. -/
structure Heard (s : GameMonitor2) (e : Event) (s' : GameMonitor2) : Prop where
  started : s'.gameStarted = false
  own : ∀ k : ℕ, (s'.players[k]?).map PlayerData.own =
    (s.players[k]?).map fun p => p.own.nextOf (fun a => s.players.contains a) k e
  dead : ∀ k : ℕ, (s'.players[k]?).map (·.isDead) =
    (s.players[k]?).map fun p => p.isDead || decide (s.loses e = some k)
  recount : s.recounts e = true → ∃ m0 : Players, m0.Wf ∧ Numbered m0 s'.players
  keep : s.recounts e = false → ∀ k : ℕ, (s'.players[k]?).map PlayerData.tallied =
    (s.players[k]?).map PlayerData.tallied

variable {s s' : GameMonitor2}

theorem map_core {m m' : Players} {β : Type} (h : resetNumbers m' = resetNumbers m) (f : PlayerData → β)
    (hf : ∀ p, f p.core = f p) (k : ℕ) : (m'[k]?).map f = (m[k]?).map f := by
  have hk := congrArg (fun x : Players => (x[k]?).map f) h
  simp only [getElem?_resetNumbers, Option.map_map] at hk
  have hcomp : f ∘ (fun p : PlayerData => p.core) = f := funext hf
  rwa [hcomp] at hk

theorem heard_idle {e : Event} (hstart : s.gameStarted = false)
    (hown : ∀ (k : ℕ) (p : PlayerData), s.players[k]? = some p → e.source = some k →
      p.own.next (fun a => s.players.contains a) e = p.own)
    (hloses : s.loses e = none) (hrec : s.recounts e = false) : Heard s e s where
  started := hstart
  own := by
    intro k
    cases hp : s.players[k]? with
    | none => rfl
    | some p =>
      rw [Option.map_some, Option.map_some, Own.nextOf]
      split
      · rename_i he
        rw [hown k p hp he]
      · rfl
  dead := by
    intro k
    simp [hloses]
  recount := fun h => absurd (hrec.symm.trans h) (by decide)
  keep := fun _ _ => rfl

section heard

variable {e : Event} {src : ℕ} {p q : PlayerData} (hp : s.players[src]? = some p)
  (he : e.source = some src) (hown : q.own = p.own.next (fun a => s.players.contains a) e)
  (hdead : q.isDead = (p.isDead || decide (s.loses e = some src)))
  (hloses : ∀ k, s.loses e = some k → k = src)

include hp he hown in
theorem own_insert (k : ℕ) : ((s.players.insert src q)[k]?).map PlayerData.own =
    (s.players[k]?).map fun r => r.own.nextOf (fun a => s.players.contains a) k e := by
  rw [Table.getElem?_insert]
  by_cases hk : k = src
  · rw [if_pos hk, hk, hp, Option.map_some, Option.map_some, Own.nextOf, if_pos he, hown]
  · have hne : e.source ≠ some k := by
      rw [he]
      exact fun h => hk (Option.some.inj h).symm
    rw [if_neg hk]
    cases s.players[k]? with
    | none => rfl
    | some r => rw [Option.map_some, Option.map_some, Own.nextOf, if_neg hne]

include hp hdead hloses in
theorem dead_insert (k : ℕ) : ((s.players.insert src q)[k]?).map (·.isDead) =
    (s.players[k]?).map fun r => r.isDead || decide (s.loses e = some k) := by
  rw [Table.getElem?_insert]
  by_cases hk : k = src
  · rw [if_pos hk, hk, hp, Option.map_some, Option.map_some, hdead]
  · have hne : s.loses e ≠ some k := fun h => hk (hloses k h)
    rw [if_neg hk]
    cases s.players[k]? with
    | none => rfl
    | some r => simp [hne]

include hp he hown hdead hloses

theorem heard_insert (hstart : s'.gameStarted = false) (hs' : s'.players = s.players.insert src q)
    (htallied : q.tallied = p.tallied) (hrec : s.recounts e = false) : Heard s e s' where
  started := hstart
  own := by
    rw [hs']
    exact own_insert hp he hown
  dead := by
    rw [hs']
    exact dead_insert hp hdead hloses
  recount := fun h => absurd (hrec.symm.trans h) (by decide)
  keep := by
    intro _ k
    rw [hs', Table.getElem?_insert]
    split
    · rename_i hk
      rw [hk, hp, Option.map_some, Option.map_some, htallied]
    · rfl

theorem heard_numbered (hstart : s'.gameStarted = false)
    (hw : Players.Wf (s.players.insert src q)) (hnum : Numbered (s.players.insert src q) s'.players)
    (hrec : s.recounts e = true) : Heard s e s' where
  started := hstart
  own := by
    intro k
    rw [map_core hnum.core PlayerData.own (fun _ => rfl)]
    exact own_insert hp he hown k
  dead := by
    intro k
    rw [map_core hnum.core (·.isDead) (fun _ => rfl)]
    exact dead_insert hp hdead hloses k
  recount := fun _ => ⟨_, hw, hnum⟩
  keep := fun h => absurd (hrec.symm.trans h) (by decide)

end heard

theorem heard_status (h : Sound s) (hstart : s.gameStarted = false) (id : ℕ) (mapName : Text)
    (maxUnits slot : ℕ) (side : ℤ) (isWatcher isAI : Bool)
    (hrun : s.onStatus id mapName maxUnits slot side isWatcher isAI = .ok s') :
    Heard s (.status id mapName maxUnits slot side isWatcher isAI) s' := by
  cases hp : s.players[id]? with
  | none =>
    unfold onStatus at hrun
    rw [hp] at hrun
    cases hrun
    refine heard_idle hstart ?_ rfl ?_
    · intro k p hk hsrc
      rw [← Option.some.inj hsrc, hp] at hk
      cases hk
    · simp only [recounts, hp]
  | some p =>
    obtain ⟨m', mn, mu, cs, -, hspec, hm'⟩ :=
      onStatus_spec h hp hstart mapName maxUnits slot side isWatcher isAI
    rw [hrun] at hspec
    have heq := Except.ok.inj hspec
    have hstart' : s'.gameStarted = false := by
      rw [heq]
      exact hstart
    have hplayers : s'.players = m' := by
      rw [heq]
      rfl
    have hdead : (described p slot side isWatcher isAI).isDead = (p.isDead || decide (s.loses
        (.status id mapName maxUnits slot side isWatcher isAI) = some id)) := by
      simp [described, loses]
    have hloses : ∀ k, s.loses (.status id mapName maxUnits slot side isWatcher isAI) = some k → k = id :=
      fun k hk => by cases hk
    rcases hm' with ⟨hre, hnum⟩ | ⟨hre, hwatch, hm'⟩
    · refine heard_numbered hp rfl rfl hdead hloses hstart' ?_ ?_ ?_
      · exact h.players.replace hp rfl (h.players.allies id p hp)
      · rw [hplayers]
        exact hnum
      · simpa only [recounts, hp, decide_eq_true_eq] using hre
    · have htallied : (described p slot side isWatcher isAI).tallied = p.tallied := by
        simp only [PlayerData.tallied, PlayerData.own, described, hwatch]
      refine heard_insert hp rfl rfl hdead hloses hstart' (hplayers.trans hm') htallied ?_
      simpa only [recounts, hp, decide_eq_false_iff_not] using hre

theorem heard_alliance (h : Sound s) (hstart : s.gameStarted = false) (subjectDpid objectDpid : ℕ)
    (isAllied : Bool) (hrun : s.handle (.alliance subjectDpid objectDpid isAllied) = .ok s') :
    Heard s (.alliance subjectDpid objectDpid isAllied) s' := by
  have hspec := handle_alliance h (e := .alliance subjectDpid objectDpid isAllied) rfl
  cases hsubject : s.players[subjectDpid]? with
  | none =>
    have hs : s' = s := by
      simp only [handle, onAlliance, hsubject] at hrun
      exact (Except.ok.inj hrun).symm
    rw [hs]
    refine heard_idle hstart ?_ rfl ?_
    · intro k p hk hsrc
      rw [← Option.some.inj hsrc, hsubject] at hk
      cases hk
    · simp only [recounts, hsubject]
  | some subject =>
    cases hobject : s.players[objectDpid]? with
    | none =>
      have hs : s' = s := by
        simp only [handle, onAlliance, hsubject, hobject] at hrun
        exact (Except.ok.inj hrun).symm
      rw [hs]
      refine heard_idle hstart ?_ rfl ?_
      · intro k p _ _
        simp only [Own.next, Table.contains_eq_false.mpr hobject]
        rfl
      · simp only [recounts, hsubject, hobject]
    | some object =>
      generalize hallies : (if isAllied then subject.allies.insert objectDpid
        else subject.allies.erase objectDpid) = allies
      have hedit : s.allianceEdit (.alliance subjectDpid objectDpid isAllied) =
          some (s.players.insert subjectDpid { subject with allies },
            decide (subject.allies.contains objectDpid ≠ isAllied)) := by
        simp only [allianceEdit, hsubject, hobject, hallies]
      have hown : PlayerData.own { subject with allies } = subject.own.next (fun a => s.players.contains a)
          (.alliance subjectDpid objectDpid isAllied) := by
        simp only [Own.next, Table.contains_of_getElem? hobject, if_true, PlayerData.own, hallies]
      have hdead : subject.isDead = (subject.isDead || decide (s.loses
          (.alliance subjectDpid objectDpid isAllied) = some subjectDpid)) := by
        simp [loses]
      have hloses : ∀ k, s.loses (.alliance subjectDpid objectDpid isAllied) = some k → k = subjectDpid :=
        fun k hk => by cases hk
      rcases hspec with ⟨hnone, -⟩ | ⟨m, changed, cs, hsome, hedited, -, hno, hyes⟩
      · rw [hedit] at hnone
        cases hnone
      rw [hedit] at hsome
      obtain ⟨rfl, rfl⟩ := Prod.mk.inj (Option.some.inj hsome)
      by_cases hc : subject.allies.contains objectDpid ≠ isAllied
      · obtain ⟨m', hm', hres⟩ := hyes (decide_eq_true hc)
        have hsound := (h.setPlayers hedited.wf fun _ => hedited.sameKeys).renumbered hm' cs
        rw [latchDraw_notStarted hsound hstart, hrun] at hres
        have heq := Except.ok.inj hres
        refine heard_numbered hsubject rfl hown hdead hloses ?_ hedited.wf ?_ ?_
        · rw [heq]
          exact hstart
        · rw [heq]
          exact hm'
        · simp only [recounts, hsubject, hobject]
          exact decide_eq_true hc
      · have hres := hno (decide_eq_false hc)
        rw [hrun] at hres
        have heq := Except.ok.inj hres
        have hsame : allies = subject.allies := by
          rw [← hallies, ← not_not.mp hc]
          exact restated_allies subject.allies objectDpid
        refine heard_insert hsubject rfl hown hdead hloses ?_ ?_ ?_ ?_
        · rw [heq]
          exact hstart
        · rw [heq]
          rfl
        · simp only [PlayerData.tallied, PlayerData.own, hsame]
        · simp only [recounts, hsubject, hobject]
          exact decide_eq_false hc

theorem heard_unitDied (h : Sound s) (hstart : s.gameStarted = false) (sourceDplayId unitId : ℕ)
    (hrun : s.onUnitDied sourceDplayId unitId = .ok s') :
    Heard s (.unitDied sourceDplayId unitId) s' := by
  rw [onUnitDied_eq h] at hrun
  split at hrun
  · rename_i hc
    rw [← Except.ok.inj hrun]
    exact heard_idle hstart (fun _ _ _ _ => rfl) (by simp only [loses, hc]; rfl) rfl
  rename_i hc
  have hcontains : s.players.contains sourceDplayId = true := by
    cases hb : s.players.contains sourceDplayId with
    | false => exact absurd hb hc
    | true => rfl
  split at hrun
  · cases hrun
  split at hrun
  · rename_i hunit
    obtain ⟨p, hp⟩ := contains_eq_true_iff.mp hcontains
    have hsound := sound_kill h sourceDplayId
    have hloses : s.loses (.unitDied sourceDplayId unitId) = some sourceDplayId := by
      simp only [loses]
      rw [if_pos ⟨hcontains, hunit⟩]
    have hkill : (s.kill sourceDplayId).gameStarted = false := by
      rw [kill_eq hp]
      exact hstart
    rw [latchDeath_notStarted hsound hkill] at hrun
    have heq := Except.ok.inj hrun
    rw [kill_eq hp] at heq
    have hdead : ({ p with isDead := true } : PlayerData).isDead =
        (p.isDead || decide (s.loses (.unitDied sourceDplayId unitId) = some sourceDplayId)) := by
      simp [hloses]
    refine heard_insert (q := { p with isDead := true }) hp rfl rfl hdead ?_ ?_ ?_ rfl rfl
    · intro k hk
      exact (Option.some.inj (hloses.symm.trans hk)).symm
    · rw [← heq]
      exact hstart
    · rw [← heq]
  · rename_i hunit
    rw [← Except.ok.inj hrun]
    refine heard_idle hstart (fun _ _ _ _ => rfl) ?_ rfl
    simp only [loses]
    rw [if_neg fun h => hunit h.2]

theorem step_heard (h : Sound s) (hstart : s.gameStarted = false) {e : Event} (he : e.source.isSome = true)
    (hstep : s.step e = some s') : Heard s e s' := by
  have hrun := ok_of_step hstep
  cases e with
  | status sourceDplayId mapName maxUnits slot side isWatcher isAI =>
    exact heard_status h hstart _ _ _ _ _ _ _ hrun
  | alliance subjectDpid objectDpid isAllied => exact heard_alliance h hstart _ _ _ hrun
  | unitDied sourceDplayId unitId => exact heard_unitDied h hstart _ _ hrun
  | superEnumPlayerReply dplayId name => cases he
  | createOrForwardPlayer command dplayId name => cases he
  | deletePlayer dplayId => cases he
  | chat sourceDplayId chat => cases he
  | teamSelection fromDplayId teamNumber => cases he
  | rejectOther sourceDplayId rejectedDplayId => cases he
  | gameTick sourceDplayId tick => cases he
  | reset => cases he

/-! ### The last recount -/

/-- `m` is the table after the last recount: declarations and numbers are still those of `m`, and
those dead in `m` are the deaths that counted. -/
structure Tally (s : GameMonitor2) (g : Toll) (m : Players) : Prop where
  numbered : ∃ m0 : Players, m0.Wf ∧ Numbered m0 m
  tallied : ∀ k : ℕ, (s.players[k]?).map PlayerData.tallied = (m[k]?).map PlayerData.tallied
  died : ∀ (k : ℕ) (p : PlayerData), s.players[k]? = some p → (p.isDead = true ↔ k ∈ g.died)
  counted : ∀ (k : ℕ) (p : PlayerData), m[k]? = some p → (p.isDead = true ↔ k ∈ g.counted)

theorem Tally.next {g : Toll} {m : Players} (h : Tally s g m) {e : Event} (hheard : Heard s e s')
    (hexcl : s.recounts e = true → s.loses e = none) : ∃ m', Tally s' (g.next s e) m' := by
  have hdied : ∀ (k : ℕ) (p' : PlayerData), s'.players[k]? = some p' →
      (p'.isDead = true ↔ k ∈ (g.next s e).died) := by
    intro k p' hp'
    have hk := hheard.dead k
    rw [hp', Option.map_some] at hk
    obtain ⟨p, hp, heq⟩ := Option.map_eq_some_iff.mp hk.symm
    have hold := h.died k p hp
    rw [← heq, Toll.next, List.mem_append, Option.mem_toList, Bool.or_eq_true, decide_eq_true_eq, hold, or_comm]
  cases hrec : s.recounts e with
  | false =>
    refine ⟨m, h.numbered, fun k => (hheard.keep hrec k).trans (h.tallied k), hdied, ?_⟩
    intro k p hp
    rw [Toll.next, hrec]
    exact h.counted k p hp
  | true =>
    refine ⟨s'.players, hheard.recount hrec, fun _ => rfl, hdied, ?_⟩
    intro k p hp
    rw [hdied k p hp, Toll.next, hexcl hrec, hrec]
    rfl

theorem loses_of_recounts {e : Event} (h : s.recounts e = true) : s.loses e = none := by
  cases e with
  | unitDied sourceDplayId unitId => cases h
  | _ => rfl

theorem sameKeys_of_map {β : Type} {m m' : Players} {f : PlayerData → β} {f' : ℕ → PlayerData → β}
    (h : ∀ k : ℕ, (m'[k]?).map f = (m[k]?).map (f' k)) (k : ℕ) : m'.contains k = m.contains k := by
  have hk := h k
  cases hm : m[k]? with
  | none =>
    rw [hm, Option.map_none, Option.map_eq_none_iff] at hk
    rw [Table.contains_eq_false.mpr hm, Table.contains_eq_false.mpr hk]
  | some p =>
    rw [hm, Option.map_some] at hk
    obtain ⟨q, hq, -⟩ := Option.map_eq_some_iff.mp hk
    rw [Table.contains_of_getElem? hm, Table.contains_of_getElem? hq]

theorem run_heard {es : List Event} (hv : Valid s) (hstart : s.gameStarted = false)
    (hes : ∀ e ∈ es, e.source.isSome = true) {g : Toll} {m : Players} (h : Tally s g m)
    (hrun : run step s es = some s') :
    s'.gameStarted = false ∧ Valid s' ∧ (∃ m', Tally s' (toll s g es) m') ∧
    ∀ k : ℕ, (s'.players[k]?).map PlayerData.own = (s.players[k]?).map fun p =>
      (es.filter fun e => e.source = some k).foldl (Own.next fun a => s.players.contains a) p.own := by
  induction es generalizing s g m with
  | nil =>
    rw [← Option.some.inj hrun]
    exact ⟨hstart, hv, ⟨m, h⟩, fun k => rfl⟩
  | cons e es ih =>
    obtain ⟨s1, hstep, hrest⟩ := Option.bind_eq_some_iff.mp hrun
    have hheard := step_heard hv.sound hstart (hes e List.mem_cons_self) hstep
    have hv1 : Valid s1 := hv.outcome (step_outcome hv.sound hstep)
    obtain ⟨m1, h1⟩ := h.next hheard loses_of_recounts
    obtain ⟨hstart', hv', htally, hown⟩ :=
      ih hv1 hheard.started (fun d hd => hes d (List.mem_cons_of_mem _ hd)) h1 hrest
    have hknown : (fun a => s1.players.contains a) = fun a => s.players.contains a :=
      funext fun a => sameKeys_of_map hheard.own a
    refine ⟨hstart', hv', ?_, ?_⟩
    · rw [toll, hstep]
      exact htally
    · intro k
      have hfold : ∀ o : Own, ((e :: es).filter fun e => e.source = some k).foldl
          (Own.next fun a => s.players.contains a) o = (es.filter fun e => e.source = some k).foldl
          (Own.next fun a => s.players.contains a) (o.nextOf (fun a => s.players.contains a) k e) := by
        intro o
        rw [← Own.foldl_filter, ← Own.foldl_filter, List.foldl_cons]
      rw [hown k, hknown]
      have hnext := congrArg (Option.map fun o => (es.filter fun e => e.source = some k).foldl
        (Own.next fun a => s.players.contains a) o) (hheard.own k)
      rw [Option.map_map, Option.map_map] at hnext
      simp only [hfold]
      exact hnext

/-! ### Instances before the first packet -/

/-- The players have joined and nothing has been heard of them. -/
structure Fresh (s : GameMonitor2) : Prop where
  started : s.gameStarted = false
  numbered : ∃ m0 : Players, m0.Wf ∧ Numbered m0 s.players
  entry : ∀ (k : ℕ) (p : PlayerData), s.players[k]? = some p → p.own = ⟨∅, false⟩ ∧ p.isDead = false

theorem fresh_new (c : Setup) : Fresh (.new c) where
  started := rfl
  numbered := by
    have hw : Players.Wf (∅ : Players) :=
      ⟨fun k p hp => by simp at hp, fun k p hp => by simp at hp⟩
    obtain ⟨m', -, hm'⟩ := updatePlayerArmies_spec hw
    have hempty : m' = ∅ := by
      refine Std.ExtTreeMap.ext_getElem? fun k => ?_
      cases hp : m'[k]? with
      | none => simp
      | some p =>
        obtain ⟨q, hq, -⟩ := core_lookup hm'.core hp
        simp at hq
    rw [hempty] at hm'
    exact ⟨∅, hw, hm'⟩
  entry := by
    intro k p hp
    simp [GameMonitor2.new] at hp

theorem fresh_addPlayer (hs : Sound s) (h : Fresh s) (setter : String) {id : ℕ} (hid : id ≠ 0) (name : Text)
    (hrun : s.addPlayer setter id name = .ok s') : Fresh s' := by
  obtain ⟨m', hm', hspec⟩ := addPlayer_spec hs setter hid name
  rw [hrun] at hspec
  have heq := Except.ok.inj hspec
  rw [heq]
  refine ⟨h.started, ⟨_, wf_addedTo hs.players hid name, hm'⟩, ?_⟩
  intro k p hp
  obtain ⟨q, hq, hcore⟩ := core_lookup hm'.core hp
  have hown := congrArg PlayerData.own hcore
  have hdead := congrArg PlayerData.isDead hcore
  have hentry : q.own = ⟨∅, false⟩ ∧ q.isDead = false := by
    rw [addedTo, Table.getElem?_insert] at hq
    split at hq
    · cases hq
      cases hold : s.players[id]? with
      | none => exact ⟨rfl, rfl⟩
      | some r => exact h.entry id r hold
    · exact h.entry k q hq
  exact ⟨hown.symm.trans hentry.1, hdead.symm.trans hentry.2⟩

theorem fresh_join (hs : Sound s) (h : Fresh s) {e : Event} (he : e.isJoin = true)
    (hstep : s.step e = some s') : Fresh s' := by
  have hrun := ok_of_step hstep
  cases e with
  | superEnumPlayerReply dplayId name =>
    simp only [handle, onDplaySuperEnumPlayerReply] at hrun
    split at hrun
    · rename_i hc
      exact fresh_addPlayer hs h _ hc.2.2.ne' name hrun
    · rw [← Except.ok.inj hrun]
      exact h
  | createOrForwardPlayer command dplayId name =>
    simp only [handle, onDplayCreateOrForwardPlayer] at hrun
    split at hrun
    · rename_i hc
      exact fresh_addPlayer hs h _ hc.2.2.2.ne' name hrun
    · rw [← Except.ok.inj hrun]
      exact h
  | deletePlayer dplayId => cases he
  | status sourceDplayId mapName maxUnits slot side isWatcher isAI => cases he
  | chat sourceDplayId chat => cases he
  | alliance subjectDpid objectDpid isAllied => cases he
  | teamSelection fromDplayId teamNumber => cases he
  | unitDied sourceDplayId unitId => cases he
  | rejectOther sourceDplayId rejectedDplayId => cases he
  | gameTick sourceDplayId tick => cases he
  | reset => cases he

/-- An instance to which players have been added, and nothing else. -/
def Joined (c : Setup) (s : GameMonitor2) : Prop :=
  c.hostPlayerName ≠ [] ∧ c.localPlayerName ≠ [] ∧ Runs step (fun _ e => e.isJoin = true) (.new c) s

theorem Joined.fresh {c : Setup} (h : Joined c s) : Valid s ∧ Fresh s := by
  refine h.2.2.invariant (P := fun t => Valid t ∧ Fresh t) ⟨valid_new h.1 h.2.1, fresh_new c⟩ ?_
  intro t e t' ht he hstep
  exact ⟨ht.1.outcome (step_outcome ht.1.sound hstep), fresh_join ht.1.sound ht.2 he hstep⟩

theorem Fresh.tally (h : Fresh s) : Tally s ⟨[], []⟩ s.players where
  numbered := h.numbered
  tallied := fun _ => rfl
  died := by
    intro k p hp
    simp [(h.entry k p hp).2]
  counted := by
    intro k p hp
    simp [(h.entry k p hp).2]

/-! ### The tick that starts the game -/

theorem frozen_at_start (h : Sound s) (hstart : s.gameStarted = false) {id tick : ℕ}
    (hstep : s.step (.gameTick id tick) = some s') (hstart' : s'.gameStarted = true) :
    s'.frozenPlayers = s.players := by
  have hrun := ok_of_step hstep
  simp only [handle] at hrun
  by_cases hc : s.players.contains id = true
  · by_cases htick : tick > s.gameStartsAfterTickCount
    · obtain ⟨cs, -, hspec⟩ := onGameTick_starts h hc hstart htick
      rw [hrun] at hspec
      rw [Except.ok.inj hspec]
      obtain ⟨r, cs1, hdue⟩ := latchDue_eq_withResult
        ((({ s with gameLaunched := true }.freeze).calling cs).latchStart.advanceTick id tick)
      obtain ⟨r', cs2, hlatch⟩ := latchStart_eq_withResult (({ s with gameLaunched := true }.freeze).calling cs)
      rw [hdue]
      show ((({ s with gameLaunched := true }.freeze).calling cs).latchStart.advanceTick id tick).frozenPlayers = _
      rw [(advanceTick_fields _ id tick).1, hlatch]
      rfl
    · have hspec := onGameTick_goesOn h hc (fun hno => htick hno.2)
      rw [hrun] at hspec
      rw [Except.ok.inj hspec] at hstart'
      obtain ⟨cs, -, hlaunch⟩ := launchGame_spec s tick
      obtain ⟨r, cs1, hdue⟩ := latchDue_eq_withResult ((s.launchGame tick).advanceTick id tick)
      rw [hdue] at hstart'
      have hsame := (advanceTick_fields (s.launchGame tick) id tick).2.1
      rw [hlaunch] at hsame hstart'
      exact absurd (hstart.symm.trans (hsame.symm.trans hstart')) (by decide)
  · have hfalse : s.players.contains id = false := by
      cases hb : s.players.contains id with
      | false => rfl
      | true => exact absurd hb hc
    unfold onGameTick at hrun
    rw [if_pos hfalse] at hrun
    rw [← Except.ok.inj hrun] at hstart'
    exact absurd (hstart.symm.trans hstart') (by decide)

/-! ### Two instances -/

theorem Tally.lookup {g : Toll} {m : Players} (h : Tally s g m) {k : ℕ} {p : PlayerData}
    (hp : s.players[k]? = some p) : ∃ q, m[k]? = some q ∧ q.tallied = p.tallied := by
  have hk := h.tallied k
  rw [hp, Option.map_some] at hk
  exact Option.map_eq_some_iff.mp hk.symm

theorem Tally.own {g : Toll} {m : Players} (h : Tally s g m) (k : ℕ) :
    (m[k]?).map PlayerData.own = (s.players[k]?).map PlayerData.own := by
  have hk := congrArg (Option.map Prod.fst) (h.tallied k)
  rw [Option.map_map, Option.map_map] at hk
  exact hk.symm

/-- A player that does not watch has no army exactly if its death counted. -/
theorem Tally.counted_iff {g : Toll} {m : Players} (h : Tally s g m) {k : ℕ} {p : PlayerData}
    (hp : s.players[k]? = some p) (hwatch : p.isWatcher = false) : k ∈ g.counted ↔ p.armyNumber = 0 := by
  obtain ⟨q, hq, htallied⟩ := h.lookup hp
  obtain ⟨m0, -, hnum⟩ := h.numbered
  have harmy : q.armyNumber = p.armyNumber := congrArg (fun x => x.2.1) htallied
  have hwatchq : q.isWatcher = false := (congrArg (fun x => x.1.isWatcher) htallied).trans hwatch
  rw [← h.counted k q hq, ← harmy]
  constructor
  · intro hdead
    refine hnum.inactive k q hq ?_
    simp [PlayerData.isActive, hdead]
  · intro hzero
    by_contra halive
    have hact : q.isActive = true := (isActive_iff q).mpr ⟨hwatchq, by simpa using halive⟩
    have hpos := (hnum.active k q hq hact).1
    omega

theorem bare_core_congr {p q : PlayerData} (hid : p.dplayid = q.dplayid) (hown : p.own = q.own)
    (hdead : p.isWatcher = false → p.isDead = q.isDead) : p.core.bare = q.core.bare := by
  have hallies : p.allies = q.allies := congrArg Own.allies hown
  have hwatch : p.isWatcher = q.isWatcher := congrArg Own.isWatcher hown
  have hact : p.isActive = q.isActive := by
    unfold PlayerData.isActive
    rw [← hwatch]
    cases hw : p.isWatcher with
    | true => simp
    | false => rw [hdead hw]
  simp only [PlayerData.bare, PlayerData.core, hid, hallies]
  show ({ PlayerData.new with
    dplayid := q.dplayid, allies := q.allies, isDead := !p.isActive, armyNumber := 0, teamNumber := 0 } :
      PlayerData) = { PlayerData.new with
    dplayid := q.dplayid, allies := q.allies, isDead := !q.isActive, armyNumber := 0, teamNumber := 0 }
  rw [hact]

/-- Two instances with the same declarations in which the same deaths counted. -/
theorem Tally.same_numbers {t : GameMonitor2} {g g' : Toll} {m m' : Players} (h : Tally s g m)
    (h' : Tally t g' m')
    (hown : ∀ k : ℕ, (s.players[k]?).map PlayerData.own = (t.players[k]?).map PlayerData.own)
    (hcount : ∀ (k : ℕ) (p : PlayerData), s.players[k]? = some p → p.isWatcher = false →
      (k ∈ g.counted ↔ k ∈ g'.counted)) {k : ℕ} {p q : PlayerData} (hp : s.players[k]? = some p)
    (hq : t.players[k]? = some q) : p.armyNumber = q.armyNumber ∧ p.teamNumber = q.teamNumber := by
  obtain ⟨m0, hw0, hnum⟩ := h.numbered
  obtain ⟨m0', hw0', hnum'⟩ := h'.numbered
  have hw : m.Wf := hw0.of_core hnum.core
  have hw' : m'.Wf := hw0'.of_core hnum'.core
  have hownm : ∀ a : ℕ, (m[a]?).map PlayerData.own = (m'[a]?).map PlayerData.own :=
    fun a => (h.own a).trans ((hown a).trans (h'.own a).symm)
  have hbare : bare (resetNumbers m) = bare (resetNumbers m') := by
    refine Std.ExtTreeMap.ext_getElem? fun a => ?_
    rw [getElem?_bare, getElem?_bare, getElem?_resetNumbers, getElem?_resetNumbers]
    have ha := hownm a
    cases hm : m[a]? with
    | none =>
      rw [hm, Option.map_none, eq_comm, Option.map_eq_none_iff] at ha
      rw [ha]
    | some x =>
      rw [hm, Option.map_some, eq_comm] at ha
      obtain ⟨y, hy, hxy⟩ := Option.map_eq_some_iff.mp ha
      rw [hy, Option.map_some, Option.map_some, Option.map_some, Option.map_some]
      refine congrArg some (bare_core_congr ?_ hxy.symm ?_)
      · rw [(hw.key a x hm).1, (hw'.key a y hy).1]
      · intro hwatch
        have hs := h.tallied a
        rw [hm, Option.map_some] at hs
        obtain ⟨z, hz, hzx⟩ := Option.map_eq_some_iff.mp hs
        have hwatchz : z.isWatcher = false := (congrArg (fun o => o.1.isWatcher) hzx).trans hwatch
        have hiff := hcount a z hz hwatchz
        rw [← h.counted a x hm, ← h'.counted a y hy] at hiff
        exact Bool.eq_iff_iff.mpr hiff
  have hsame : bare m = bare m' := by
    refine hnum.congr hnum' hw0 hw0' ?_
    rw [← hnum.core, ← hnum'.core]
    exact hbare
  obtain ⟨x, hx, hxp⟩ := h.lookup hp
  obtain ⟨y, hy, hyq⟩ := h'.lookup hq
  have hk := congrArg (fun z : Players => z[k]?) hsame
  simp only [getElem?_bare, hx, hy, Option.map_some, Option.some.injEq] at hk
  have harmy : x.bare.armyNumber = y.bare.armyNumber := congrArg PlayerData.armyNumber hk
  have hteam : x.bare.teamNumber = y.bare.teamNumber := congrArg PlayerData.teamNumber hk
  have hp1 : x.armyNumber = p.armyNumber := congrArg (fun o => o.2.1) hxp
  have hp2 : x.teamNumber = p.teamNumber := congrArg (fun o => o.2.2) hxp
  have hq1 : y.armyNumber = q.armyNumber := congrArg (fun o => o.2.1) hyq
  have hq2 : y.teamNumber = q.teamNumber := congrArg (fun o => o.2.2) hyq
  exact ⟨hp1.symm.trans (harmy.trans hq1), hp2.symm.trans (hteam.trans hq2)⟩

theorem Fresh.own_eq {t : GameMonitor2} (h : Fresh s) (h' : Fresh t)
    (hplayers : ∀ k : ℕ, s.players.contains k = t.players.contains k) (k : ℕ) :
    (s.players[k]?).map PlayerData.own = (t.players[k]?).map PlayerData.own := by
  have hk := hplayers k
  cases hs : s.players[k]? with
  | none =>
    rw [Table.contains_eq_false.mpr hs, eq_comm, Table.contains_eq_false] at hk
    rw [hk]
  | some p =>
    rw [Table.contains_of_getElem? hs, eq_comm, contains_eq_true_iff] at hk
    obtain ⟨q, hq⟩ := hk
    rw [hq, Option.map_some, Option.map_some, (h.entry k p hs).1, (h'.entry k q hq).1]

/-- Two instances hear the same packets, each player's in order, and freeze the players at the
same tick. They freeze the same numbers exactly if the same deaths counted in both. -/
theorem same_armies_iff {c c' : Setup} {s t s1 t1 s2 t2 : GameMonitor2} (hs : Joined c s) (ht : Joined c' t)
    (hplayers : ∀ k : ℕ, s.players.contains k = t.players.contains k) {es es' : List Event}
    (hes : ∀ e ∈ es, e.source.isSome = true) (hes' : ∀ e ∈ es', e.source.isSome = true)
    (horder : ∀ k, es.filter (fun e => e.source = some k) = es'.filter fun e => e.source = some k)
    (hrun : run step s es = some s1) (hrun' : run step t es' = some t1) {id tick : ℕ}
    (htick : s1.step (.gameTick id tick) = some s2) (htick' : t1.step (.gameTick id tick) = some t2)
    (hstart : s2.gameStarted = true) (hstart' : t2.gameStarted = true) :
    (∀ (k : ℕ) (p q : PlayerData), s2.frozenPlayers[k]? = some p → t2.frozenPlayers[k]? = some q →
      p.armyNumber = q.armyNumber ∧ p.teamNumber = q.teamNumber) ↔
    ∀ (k : ℕ) (p : PlayerData), s1.players[k]? = some p → p.isWatcher = false →
      (k ∈ (toll s ⟨[], []⟩ es).counted ↔ k ∈ (toll t ⟨[], []⟩ es').counted) := by
  obtain ⟨hvs, hfs⟩ := hs.fresh
  obtain ⟨hvt, hft⟩ := ht.fresh
  obtain ⟨hstart1, hv1, ⟨m, hm⟩, hown1⟩ := run_heard hvs hfs.started hes hfs.tally hrun
  obtain ⟨hstart1', hv1', ⟨m', hm'⟩, hown1'⟩ := run_heard hvt hft.started hes' hft.tally hrun'
  have hknown : (fun a => s.players.contains a) = fun a => t.players.contains a := funext hplayers
  have hown : ∀ k : ℕ, (s1.players[k]?).map PlayerData.own = (t1.players[k]?).map PlayerData.own := by
    intro k
    have h0 := congrArg (Option.map fun o => (es.filter fun e => e.source = some k).foldl
      (Own.next fun a => s.players.contains a) o) (hfs.own_eq hft hplayers k)
    rw [Option.map_map, Option.map_map] at h0
    rw [hown1 k, hown1' k, ← horder k, ← hknown]
    exact h0
  rw [frozen_at_start hv1.sound hstart1 htick hstart, frozen_at_start hv1'.sound hstart1' htick' hstart']
  constructor
  · intro hsame k p hp hwatch
    have hk := hown k
    rw [hp, Option.map_some, eq_comm] at hk
    obtain ⟨q, hq, hqp⟩ := Option.map_eq_some_iff.mp hk
    have hwatchq : q.isWatcher = false := (congrArg Own.isWatcher hqp).trans hwatch
    rw [hm.counted_iff hp hwatch, hm'.counted_iff hq hwatchq, (hsame k p q hp hq).1]
  · intro hcount k p q hp hq
    exact hm.same_numbers hm' hown hcount hp hq

/-- The instance of player `b` in the duel. -/
def duelB : Setup := { duel with localPlayerName := "b".toList }

def duelJoins : List Event := [.createOrForwardPlayer 8 1 "a".toList, .createOrForwardPlayer 8 2 "b".toList]

def hostStatus : Event := .status 1 "map".toList 100 0 0 false false

/-- The numbers in a table. -/
def numbers (m : Players) : List (ℕ × ℕ × ℕ) := m.toList.map fun kp => (kp.1, kp.2.armyNumber, kp.2.teamNumber)

theorem mem_numbers {m : Players} {k army team : ℕ} (h : (k, army, team) ∈ numbers m) :
    ∃ p : PlayerData, m[k]? = some p ∧ p.armyNumber = army ∧ p.teamNumber = team := by
  unfold numbers at h
  obtain ⟨⟨a, p⟩, hmem, heq⟩ := List.mem_map.mp h
  simp only [Prod.mk.injEq] at heq
  obtain ⟨rfl, harmy, hteam⟩ := heq
  exact ⟨p, Table.mem_toList.mp hmem, harmy, hteam⟩

/-- An instance of the duel: who has joined, the state before the tick and the state after it. -/
theorem duel_instance (c : Setup) (es : List Event) (hhost : c.hostPlayerName ≠ []) (hlocal : c.localPlayerName ≠ [])
    {keys : List ℕ} {result : List (ℕ × ℕ × ℕ)}
    (hjoin : (run step (.new c) duelJoins).map (·.players.keys) = some keys)
    (heval : (run step (.new c) (duelJoins ++ es ++ [.gameTick 2 11])).map
      (fun s => (s.gameStarted, numbers s.frozenPlayers)) = some (true, result)) :
    ∃ s s1 s2 : GameMonitor2, Joined c s ∧ s.players.keys = keys ∧ run step s es = some s1 ∧
      s1.step (.gameTick 2 11) = some s2 ∧ s2.gameStarted = true ∧ numbers s2.frozenPlayers = result := by
  obtain ⟨s, hrun, hkeys⟩ := Option.map_eq_some_iff.mp hjoin
  obtain ⟨s2, hrun2, hs2⟩ := Option.map_eq_some_iff.mp heval
  rw [run_append, run_append, hrun] at hrun2
  obtain ⟨s1, hrun1, htick⟩ := Option.bind_eq_some_iff.mp hrun2
  have hstep : s1.step (.gameTick 2 11) = some s2 := by simpa [run] using htick
  have hjoined : Joined c s := by
    refine ⟨hhost, hlocal, Runs.of_run duelJoins hrun ?_⟩
    intro _ e he
    fin_cases he <;> rfl
  obtain ⟨hstart, hnumbers⟩ := Prod.mk.inj hs2
  exact ⟨s, s1, s2, hjoined, hkeys, hrun1, hstep, hstart, hnumbers⟩

theorem contains_of_keys {m m' : Players} (h : m.keys = m'.keys) (k : ℕ) : m.contains k = m'.contains k := by
  have hk : k ∈ m.keys ↔ k ∈ m'.keys := by rw [h]
  rw [Std.ExtTreeMap.mem_keys, Std.ExtTreeMap.mem_keys] at hk
  exact Bool.eq_iff_iff.mpr hk

/-- The death of the commander of `a` and an alliance declared by `b`, in either order. -/
theorem sources_in_order (es : List Event) (k : ℕ) :
    (hostStatus :: .unitDied 1 1 :: .alliance 2 1 true :: es).filter (fun e => e.source = some k) =
      (hostStatus :: .alliance 2 1 true :: .unitDied 1 1 :: es).filter fun e => e.source = some k := by
  by_cases h1 : k = 1
  · subst h1
    rfl
  · by_cases h2 : k = 2
    · subst h2
      rfl
    · simp [hostStatus, Event.source, Ne.symm h1, Ne.symm h2]

def statusOfB : Event := .status 2 "map".toList 100 1 0 false false

/-- The commander of `a` dies before or after `b` declares an alliance; in both instances the
status of `b` comes last and the death counts. -/
theorem same_armies_duel : ∃ s t s1 t1 s2 t2 : GameMonitor2, Joined duel s ∧ Joined duelB t ∧
    run step s [hostStatus, .unitDied 1 1, .alliance 2 1 true, statusOfB] = some s1 ∧
    run step t [hostStatus, .alliance 2 1 true, .unitDied 1 1, statusOfB] = some t1 ∧
    s1.step (.gameTick 2 11) = some s2 ∧ t1.step (.gameTick 2 11) = some t2 ∧
    ((∀ (k : ℕ) (p q : PlayerData), s2.frozenPlayers[k]? = some p → t2.frozenPlayers[k]? = some q →
      p.armyNumber = q.armyNumber ∧ p.teamNumber = q.teamNumber) ↔
    ∀ (k : ℕ) (p : PlayerData), s1.players[k]? = some p → p.isWatcher = false →
      (k ∈ (toll s ⟨[], []⟩ [hostStatus, .unitDied 1 1, .alliance 2 1 true, statusOfB]).counted ↔
        k ∈ (toll t ⟨[], []⟩ [hostStatus, .alliance 2 1 true, .unitDied 1 1, statusOfB]).counted)) := by
  obtain ⟨s, s1, s2, hs, hkeys, hrun, htick, hstart, -⟩ := duel_instance duel
    [hostStatus, .unitDied 1 1, .alliance 2 1 true, statusOfB] (by decide) (by decide)
    (by decide +kernel : _ = some [1, 2]) (by decide +kernel : _ = some (true, [(1, 0, 0), (2, 1, 2)]))
  obtain ⟨t, t1, t2, ht, hkeys', hrun', htick', hstart', -⟩ := duel_instance duelB
    [hostStatus, .alliance 2 1 true, .unitDied 1 1, statusOfB] (by decide) (by decide)
    (by decide +kernel : _ = some [1, 2]) (by decide +kernel : _ = some (true, [(1, 0, 0), (2, 1, 2)]))
  refine ⟨s, t, s1, t1, s2, t2, hs, ht, hrun, hrun', htick, htick', ?_⟩
  refine same_armies_iff hs ht (contains_of_keys (hkeys.trans hkeys'.symm)) ?_ ?_ ?_ hrun hrun' htick htick'
    hstart hstart'
  · intro e he
    fin_cases he <;> rfl
  · intro e he
    fin_cases he <;> rfl
  · exact sources_in_order _

/-- The alliance that `b` declares is heard before or after the death, and nothing afterwards. -/
theorem early_death_divides : ∃ s t s1 t1 s2 t2 : GameMonitor2, Joined duel s ∧ Joined duelB t ∧
    (∀ k : ℕ, s.players.contains k = t.players.contains k) ∧
    (∀ k, [hostStatus, .unitDied 1 1, .alliance 2 1 true].filter (fun e => e.source = some k) =
      [hostStatus, .alliance 2 1 true, .unitDied 1 1].filter fun e => e.source = some k) ∧
    run step s [hostStatus, .unitDied 1 1, .alliance 2 1 true] = some s1 ∧
    run step t [hostStatus, .alliance 2 1 true, .unitDied 1 1] = some t1 ∧
    s1.step (.gameTick 2 11) = some s2 ∧ t1.step (.gameTick 2 11) = some t2 ∧
    s2.gameStarted = true ∧ t2.gameStarted = true ∧
    ¬ ∀ (k : ℕ) (p q : PlayerData), s2.frozenPlayers[k]? = some p → t2.frozenPlayers[k]? = some q →
      p.armyNumber = q.armyNumber ∧ p.teamNumber = q.teamNumber := by
  obtain ⟨s, s1, s2, hs, hkeys, hrun, htick, hstart, hnum⟩ := duel_instance duel
    [hostStatus, .unitDied 1 1, .alliance 2 1 true] (by decide) (by decide)
    (by decide +kernel : _ = some [1, 2]) (by decide +kernel : _ = some (true, [(1, 0, 0), (2, 1, 2)]))
  obtain ⟨t, t1, t2, ht, hkeys', hrun', htick', hstart', hnum'⟩ := duel_instance duelB
    [hostStatus, .alliance 2 1 true, .unitDied 1 1] (by decide) (by decide)
    (by decide +kernel : _ = some [1, 2]) (by decide +kernel : _ = some (true, [(1, 1, 2), (2, 2, 3)]))
  refine ⟨s, t, s1, t1, s2, t2, hs, ht, contains_of_keys (hkeys.trans hkeys'.symm), ?_, hrun, hrun', htick,
    htick', hstart, hstart', ?_⟩
  · exact sources_in_order []
  · intro hsame
    have hp : (1, 0, 0) ∈ numbers s2.frozenPlayers := by simp [hnum]
    have hq : (1, 1, 2) ∈ numbers t2.frozenPlayers := by simp [hnum']
    obtain ⟨p, hp, harmy, -⟩ := mem_numbers hp
    obtain ⟨q, hq, harmy', -⟩ := mem_numbers hq
    have heq := (hsame 1 p q hp hq).1
    omega

end GameMonitor2

end Gpgnet4TA.App
