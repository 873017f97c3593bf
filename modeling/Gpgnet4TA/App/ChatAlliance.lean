import Gpgnet4TA.App.Announcement

/-!
# Alliances by chat and by packet

`onChat` finds the other player by the word behind the last blank, and makes the numbers anew
and looks for a draw for every line that declares an alliance. `onAlliance` is given ids and
does so only for a change. The two agree when the numbers are up to date: since they were made,
players may have died.
-/

namespace Gpgnet4TA.App
open Gpgnet4TA.Lib

/-! ### Tables since they were numbered -/

/-- What stays of a player until the numbers are made anew. -/
structure Lasting where
  name : Text
  allies : Std.ExtTreeSet ℕ
  isWatcher : Bool
  armyNumber : ℕ
  teamNumber : ℕ

def PlayerData.lasting (p : PlayerData) : Lasting :=
  ⟨p.name, p.allies, p.isWatcher, p.armyNumber, p.teamNumber⟩

/-- From `m` to `m'` players may have died. -/
structure Aged (m m' : Players) : Prop where
  same : ∀ k : ℕ, (m'[k]?).map PlayerData.lasting = (m[k]?).map PlayerData.lasting
  dead : ∀ (k : ℕ) (p p' : PlayerData), m[k]? = some p → m'[k]? = some p' → p.isDead = true →
    p'.isDead = true

theorem Aged.refl (m : Players) : Aged m m where
  same := fun _ => rfl
  dead := by
    intro k p p' hp hp' hdead
    rw [← Option.some.inj (hp.symm.trans hp')]
    exact hdead

theorem Aged.lookup {m m' : Players} (h : Aged m m') {k : ℕ} {p' : PlayerData} (hp' : m'[k]? = some p') :
    ∃ p, m[k]? = some p ∧ p.lasting = p'.lasting := by
  have hk := h.same k
  rw [hp', Option.map_some] at hk
  exact Option.map_eq_some_iff.mp hk.symm

theorem Aged.lookup_back {m m' : Players} (h : Aged m m') {k : ℕ} {p : PlayerData} (hp : m[k]? = some p) :
    ∃ p', m'[k]? = some p' ∧ p'.lasting = p.lasting := by
  have hk := h.same k
  rw [hp, Option.map_some] at hk
  exact Option.map_eq_some_iff.mp hk

theorem Aged.trans {m1 m2 m3 : Players} (h : Aged m1 m2) (h' : Aged m2 m3) : Aged m1 m3 where
  same := fun k => (h'.same k).trans (h.same k)
  dead := by
    intro k p p'' hp hp'' hdead
    obtain ⟨p', hp', -⟩ := h.lookup_back hp
    exact h'.dead k p' p'' hp' hp'' (h.dead k p p' hp hp' hdead)

theorem aged_insert {m : Players} {k : ℕ} {p p' : PlayerData} (hp : m[k]? = some p)
    (hsame : p'.lasting = p.lasting) (hdead : p.isDead = true → p'.isDead = true) :
    Aged m (m.insert k p') where
  same := by
    intro a
    rw [Table.getElem?_insert]
    by_cases ha : a = k
    · rw [if_pos ha, ha, hp, Option.map_some, Option.map_some, hsame]
    · rw [if_neg ha]
  dead := by
    intro a q q' hq hq' hq'dead
    rw [Table.getElem?_insert] at hq'
    split at hq'
    · rename_i ha
      cases hq'
      rw [ha, hp] at hq
      rw [← Option.some.inj hq] at hq'dead
      exact hdead hq'dead
    · rw [← Option.some.inj (hq.symm.trans hq')]
      exact hq'dead

def Players.Named (m : Players) : Prop := ∀ (k : ℕ) (p : PlayerData), m[k]? = some p → p.name ≠ []

theorem Aged.named {m m' : Players} (h : Aged m m') (hn : m.Named) : m'.Named := by
  intro k p' hp'
  obtain ⟨p, hp, hsame⟩ := h.lookup hp'
  have hname : p.name = p'.name := congrArg Lasting.name hsame
  rw [← hname]
  exact hn k p hp

theorem Numbered.named {m m' : Players} (h : Numbered m m') (hn : m.Named) : m'.Named := by
  intro k p' hp'
  obtain ⟨p, hp, hcore⟩ := core_lookup h.core hp'
  have hname := congrArg PlayerData.name hcore
  have hname' : p.name = p'.name := hname
  rw [← hname']
  exact hn k p hp

theorem Edited.named {m m' : Players} (h : Edited m m') (hn : m.Named) : m'.Named := by
  intro k p' hp'
  obtain ⟨p, hp, hsame⟩ := h.lookup hp'
  have hname := congrArg PlayerData.name hsame
  have hname' : p.name = p'.name := hname
  rw [← hname']
  exact hn k p hp

/-- The table has been numbered at some time and has aged since. -/
structure Neat (m : Players) : Prop where
  named : m.Named
  numbered : ∃ m0 m1 : Players, m0.Wf ∧ Numbered m0 m1 ∧ Aged m1 m

theorem Numbered.neat {m m' : Players} (h : Numbered m m') (hw : m.Wf) (hn : m.Named) : Neat m' :=
  ⟨h.named hn, m, m', hw, h, .refl m'⟩

theorem Aged.neat {m m' : Players} (h : Aged m m') (hm : Neat m) : Neat m' := by
  obtain ⟨m0, m1, hw, hnum, haged⟩ := hm.numbered
  exact ⟨h.named hm.named, m0, m1, hw, hnum, haged.trans h⟩

theorem neat_empty : Neat ∅ := by
  have hw : Players.Wf ∅ := ⟨by intro k p hp; simp at hp, by intro k p hp; simp at hp⟩
  obtain ⟨m', -, hm'⟩ := updatePlayerArmies_spec hw
  refine ⟨by intro k p hp; simp at hp, ∅, m', hw, hm', fun k => ?_, by intro k p p' _ hp'; simp at hp'⟩
  cases hp : m'[k]? with
  | none => simp
  | some p =>
    obtain ⟨q, hq, -⟩ := core_lookup hm'.core hp
    simp at hq

/-- Nobody has died since the numbers were made. -/
def UpToDate (m : Players) : Prop :=
  ∀ (k : ℕ) (p : PlayerData), m[k]? = some p → p.isDead = true → p.armyNumber = 0

theorem Aged.isActive_eq {m0 m m' : Players} (hnum : Numbered m0 m) (h : Aged m m') (hd : UpToDate m')
    {k : ℕ} {p p' : PlayerData} (hp : m[k]? = some p) (hp' : m'[k]? = some p')
    (hsame : p.lasting = p'.lasting) : p.isActive = p'.isActive := by
  have hwatch : p.isWatcher = p'.isWatcher := congrArg Lasting.isWatcher hsame
  have harmy : p.armyNumber = p'.armyNumber := congrArg Lasting.armyNumber hsame
  cases hact : p.isActive with
  | true =>
    have hpos := (hnum.active k p hp hact).1
    have halive : p'.isDead = false := by
      by_contra hdead
      have hzero := hd k p' hp' (by simpa using hdead)
      omega
    refine ((isActive_iff p').mpr ⟨?_, halive⟩).symm
    rw [← hwatch]
    exact ((isActive_iff p).mp hact).1
  | false =>
    by_contra hno
    have hact' := (isActive_iff p').mp (by simpa using Ne.symm hno)
    have halive : p.isDead = false := by
      by_contra hdead
      have hdead' := h.dead k p p' hp hp' (by simpa using hdead)
      rw [hact'.2] at hdead'
      cases hdead'
    have hyes := (isActive_iff p).mpr ⟨hwatch.trans hact'.1, halive⟩
    rw [hact] at hyes
    cases hyes

theorem bare_eq_of_lasting {p q : PlayerData} (hid : p.dplayid = q.dplayid) (hsame : p.lasting = q.lasting)
    (hact : p.isActive = q.isActive) : p.bare = q.bare := by
  have hallies : p.allies = q.allies := congrArg Lasting.allies hsame
  have harmy : p.armyNumber = q.armyNumber := congrArg Lasting.armyNumber hsame
  have hteam : p.teamNumber = q.teamNumber := congrArg Lasting.teamNumber hsame
  simp only [PlayerData.bare, hid, hallies, harmy, hteam, hact]

theorem eq_of_core {p q : PlayerData} (hcore : p.core = q.core) (harmy : p.armyNumber = q.armyNumber)
    (hteam : p.teamNumber = q.teamNumber) : p = q := by
  have hp : p = { p.core with armyNumber := p.armyNumber, teamNumber := p.teamNumber } := rfl
  rw [hp, hcore, harmy, hteam]
  rfl

/-- Making the numbers anew changes nothing exactly if they are up to date. -/
theorem renumber_same_iff {m m' : Players} (hw : m.Wf) (hn : Neat m) (h : Numbered m m') :
    m' = m ↔ UpToDate m := by
  constructor
  · intro heq k p hp hdead
    refine h.inactive k p (by rw [heq]; exact hp) ?_
    simp [PlayerData.isActive, hdead]
  · intro hd
    obtain ⟨m0, m1, hw0, hnum, haged⟩ := hn.numbered
    have hw1 : m1.Wf := hw0.of_core hnum.core
    have hbare : bare m = bare m1 := by
      refine Std.ExtTreeMap.ext_getElem? fun k => ?_
      rw [getElem?_bare, getElem?_bare]
      cases hp : m[k]? with
      | none =>
        cases hp1 : m1[k]? with
        | none => rfl
        | some p1 =>
          obtain ⟨p, hp', -⟩ := haged.lookup_back hp1
          rw [hp] at hp'
          cases hp'
      | some p =>
        obtain ⟨p1, hp1, hsame⟩ := haged.lookup hp
        have hid : p.dplayid = p1.dplayid := (hw.key k p hp).1.trans (hw1.key k p1 hp1).1.symm
        have hact := haged.isActive_eq hnum hd hp1 hp hsame
        rw [hp1, Option.map_some, Option.map_some, bare_eq_of_lasting hid hsame.symm hact.symm]
    have hreset : bare (resetNumbers m) = bare (resetNumbers m0) := by
      rw [bare_resetNumbers, hbare, ← bare_resetNumbers, hnum.core]
    have hall : bare m' = bare m := (Numbered.congr h hnum hw hw0 hreset).trans hbare.symm
    refine Std.ExtTreeMap.ext_getElem? fun k => ?_
    have hk := congrArg (fun x : Players => x[k]?) hall
    simp only [getElem?_bare] at hk
    cases hp' : m'[k]? with
    | none =>
      rw [hp'] at hk
      exact (Option.map_eq_none_iff.mp hk.symm).symm
    | some p' =>
      obtain ⟨p, hp, hcore⟩ := core_lookup h.core hp'
      rw [hp', hp, Option.map_some, Option.map_some, Option.some.injEq] at hk
      have harmy := congrArg PlayerData.armyNumber hk
      have hteam := congrArg PlayerData.teamNumber hk
      rw [hp, eq_of_core hcore.symm harmy hteam]

/-! ### Edits that change nothing -/

namespace GameMonitor2

variable {s s' : GameMonitor2}

theorem modifyAllies_eq_self {m : Players} {k : ℕ} {p : PlayerData} (hp : m[k]? = some p)
    {f : Std.ExtTreeSet ℕ → Std.ExtTreeSet ℕ} (hf : f p.allies = p.allies) : modifyAllies m k f = m := by
  simp only [modifyAllies, hp, hf]
  exact Table.insert_eq_self hp

theorem selectTeam_unchanged {m m' : Players} {any : Bool} {fromDplayId key : ℕ} {teamNumber : ℤ}
    (h : selectTeam fromDplayId teamNumber (m, any) key = (m', false)) : any = false ∧ m' = m := by
  unfold selectTeam at h
  split at h
  · rename_i subject object hsubject hobject
    simp only [] at hsubject hobject h
    split at h
    · cases h
      exact ⟨rfl, rfl⟩
    split at h
    · simp only [Prod.mk.injEq, Bool.or_eq_false_iff, Bool.not_eq_false'] at h
      obtain ⟨hm, ⟨hany, hAB⟩, hBA⟩ := h
      have hfirst := modifyAllies_eq_self hsubject (f := (·.insert object.dplayid))
        (Table.set_insert_eq_self hAB)
      rw [hfirst, modifyAllies_eq_self hobject (Table.set_insert_eq_self hBA)] at hm
      exact ⟨hany, hm.symm⟩
    · simp only [Prod.mk.injEq, Bool.or_eq_false_iff] at h
      obtain ⟨hm, ⟨hany, hAB⟩, hBA⟩ := h
      have hA : object.dplayid ∉ subject.allies := by
        rw [Std.ExtTreeSet.mem_iff_contains, hAB]
        decide
      have hB : subject.dplayid ∉ object.allies := by
        rw [Std.ExtTreeSet.mem_iff_contains, hBA]
        decide
      have hfirst := modifyAllies_eq_self hsubject (f := (·.erase object.dplayid))
        (Table.set_erase_eq_self hA)
      rw [hfirst, modifyAllies_eq_self hobject (Table.set_erase_eq_self hB)] at hm
      exact ⟨hany, hm.symm⟩
  · cases h
    exact ⟨rfl, rfl⟩

theorem foldl_selectTeam_unchanged {fromDplayId : ℕ} {teamNumber : ℤ} (keys : List ℕ) {m m' : Players}
    {any : Bool} (h : keys.foldl (selectTeam fromDplayId teamNumber) (m, any) = (m', false)) :
    any = false ∧ m' = m := by
  induction keys generalizing m any with
  | nil =>
    cases h
    exact ⟨rfl, rfl⟩
  | cons key keys ih =>
    rw [List.foldl_cons] at h
    obtain ⟨hany, hm⟩ := ih (m := (selectTeam fromDplayId teamNumber (m, any) key).1) h
    obtain ⟨hany', hm'⟩ := selectTeam_unchanged (Prod.ext rfl hany)
    exact ⟨hany', hm.trans hm'⟩

/-- An alliance event that is no change leaves the table as it is, but for battleroom teams. -/
theorem allianceEdit_unchanged {e : Event} {m : Players} (h : s.allianceEdit e = some (m, false)) :
    Aged s.players m := by
  cases e with
  | chat sourceDplayId chat =>
    simp only [allianceEdit] at h
    split at h
    · cases h
    split at h
    · cases h
    · cases h
      exact .refl _
  | alliance subjectDpid objectDpid isAllied =>
    simp only [allianceEdit] at h
    split at h
    · rename_i subject object hsubject hobject
      simp only [Option.some.injEq, Prod.mk.injEq, decide_eq_false_iff_not, not_not] at h
      obtain ⟨hm, hsame⟩ := h
      rw [← hm, ← hsame, restated_allies]
      exact aged_insert hsubject rfl id
    · cases h
  | teamSelection fromDplayId teamNumber =>
    simp only [allianceEdit] at h
    split at h
    · cases h
    · rename_i subject hsubject
      obtain ⟨-, hm⟩ := foldl_selectTeam_unchanged _ (Option.some.inj h)
      rw [hm]
      exact aged_insert hsubject rfl id
  | superEnumPlayerReply dplayId name => cases h
  | createOrForwardPlayer command dplayId name => cases h
  | deletePlayer dplayId => cases h
  | status sourceDplayId mapName maxUnits slot side isWatcher isAI => cases h
  | unitDied sourceDplayId unitId => cases h
  | rejectOther sourceDplayId rejectedDplayId => cases h
  | gameTick sourceDplayId tick => cases h
  | reset => cases h

/-! ### What a step does to the numbers and to a draw -/

/-- No draw is left unlatched. -/
def Undrawn (s : GameMonitor2) : Prop :=
  s.gameStarted = true → s.gameResult.status = .NOT_READY → ¬ s.Drawn

/-- The table ages or is numbered anew, and a draw is latched when it comes about. -/
structure Turn (s s' : GameMonitor2) : Prop where
  table : Neat s.players → Neat s'.players
  drawn : Undrawn s → Undrawn s'

theorem Turn.idle (s : GameMonitor2) : Turn s s := ⟨id, id⟩

theorem turn_notStarted (hstart : s'.gameStarted = false) (ht : Neat s.players → Neat s'.players) :
    Turn s s' where
  table := ht
  drawn := fun _ hyes => absurd (hstart.symm.trans hyes) (by decide)

theorem turn_lobby {m : Players} (hstart : s'.gameStarted = false) (hw : m.Wf)
    (hn : s.players.Named → m.Named) (hm : Numbered m s'.players) : Turn s s' :=
  turn_notStarted hstart fun hneat => hm.neat hw (hn hneat.named)

theorem named_removed {m : Players} (hn : m.Named) (id : ℕ) : (removeAlly id (m.erase id)).Named := by
  intro k p hp
  rw [removeAlly, Std.ExtTreeMap.getElem?_map, Table.getElem?_erase] at hp
  obtain ⟨q, hq, rfl⟩ := Option.map_eq_some_iff.mp hp
  split at hq
  · cases hq
  · exact hn k q hq

theorem named_insert {m : Players} (hn : m.Named) {k : ℕ} {p : PlayerData} (hp : p.name ≠ []) :
    Players.Named (m.insert k p) := by
  intro a q hq
  rw [Table.getElem?_insert] at hq
  split at hq
  · cases hq
    exact hp
  · exact hn a q hq

theorem turn_addPlayer (h : Sound s) (hstart : s.gameStarted = false) (setter : String) {id : ℕ}
    (hid : id ≠ 0) {name : Text} (hname : name ≠ []) (hrun : s.addPlayer setter id name = .ok s') :
    Turn s s' := by
  obtain ⟨m', hm', hok⟩ := addPlayer_spec h setter hid name
  rw [hrun] at hok
  cases hok
  exact turn_lobby hstart (wf_addedTo h.players hid name) (fun hn => named_insert hn hname) hm'

theorem turn_removePlayer (h : Sound s) (hstart : s.gameStarted = false) {id : ℕ}
    (hc : s.players.contains id = true) (hrun : s.removePlayer id = .ok s') : Turn s s' := by
  obtain ⟨p, hp⟩ := contains_eq_true_iff.mp hc
  rcases removePlayer_spec h hp with herr | ⟨m', cs, hm', hcs, hok⟩
  · rw [hrun] at herr
    cases herr
  · rw [hrun] at hok
    cases hok
    exact turn_lobby hstart (wf_removed h.players id) (fun hn => named_removed hn id) hm'

theorem turn_onStatus (h : Sound s) {id : ℕ} {mapName : Text} {maxUnits slot : ℕ} {side : ℤ}
    {isWatcher isAI : Bool}
    (hrun : s.onStatus id mapName maxUnits slot side isWatcher isAI = .ok s') : Turn s s' := by
  cases hp : s.players[id]? with
  | none =>
    unfold onStatus at hrun
    rw [hp] at hrun
    cases hrun
    exact .idle s
  | some p =>
    by_cases hstart : s.gameStarted = false
    · obtain ⟨m', mn, mu, cs, hcs, hok, hm'⟩ :=
        onStatus_spec h hp hstart mapName maxUnits slot side isWatcher isAI
      rw [hrun] at hok
      cases hok
      refine turn_notStarted hstart fun hneat => ?_
      rcases hm' with ⟨-, hnum⟩ | ⟨-, hwatch, heq⟩
      · have hw : Players.Wf (s.players.insert id (described p slot side isWatcher isAI)) :=
          h.players.replace hp rfl (h.players.allies id p hp)
        exact hnum.neat hw (named_insert hneat.named (hneat.named id p hp))
      · have hlasting : (described p slot side isWatcher isAI).lasting = p.lasting := by
          simp only [PlayerData.lasting, described, hwatch]
        show Neat m'
        rw [heq]
        exact (aged_insert hp hlasting fun hdead => hdead).neat hneat
    · unfold onStatus at hrun
      rw [hp] at hrun
      simp only [Bool.not_eq_false] at hstart
      simp only [hstart, if_true] at hrun
      cases hrun
      exact .idle s

theorem undrawn_of_latch {b j : GameMonitor2} (hdraw : b.Drawn → j = b.latchEndGameResult (-1))
    (hwith : ∃ r cs, j = b.withResult r cs) : Undrawn j := by
  intro _ hstatus hd
  obtain ⟨r, cs, heq⟩ := hwith
  have hb : b.Drawn := by
    rw [heq] at hd
    exact hd
  rw [hdraw hb] at hstatus
  by_cases hs : b.gameResult.status = .NOT_READY
  · rw [latch_negative hs (by decide)] at hstatus
    cases hstatus
  · rw [show b.latchEndGameResult (-1) = b from if_pos hs] at hstatus
    exact hs hstatus

/-- Whether the game is drawn depends on who is active and on the teams. -/
theorem drawn_congr (hfrozen : s'.frozenPlayers = s.frozenPlayers)
    (hsame : ∀ k : ℕ, (s'.players[k]?).map (fun p => (p.isActive, p.teamNumber)) =
      (s.players[k]?).map (fun p => (p.isActive, p.teamNumber))) (hd : s'.Drawn) : s.Drawn := by
  have hlookup : ∀ (k : ℕ) (p : PlayerData), s.players[k]? = some p → ∃ p' : PlayerData,
      s'.players[k]? = some p' ∧ p'.isActive = p.isActive ∧ p'.teamNumber = p.teamNumber := by
    intro k p hp
    have hk := hsame k
    rw [hp, Option.map_some] at hk
    obtain ⟨p', hp', heq⟩ := Option.map_eq_some_iff.mp hk
    exact ⟨p', hp', congrArg Prod.fst heq, congrArg Prod.snd heq⟩
  have hlive : ∀ k, s.Active k → s'.Active k := by
    intro k h
    obtain ⟨p, hp, hact⟩ := h
    obtain ⟨p', hp', hact', -⟩ := hlookup k p hp
    exact ⟨p', hp', hact'.trans hact⟩
  have hback : ∀ k, s'.Active k → s.Active k := by
    intro k h
    obtain ⟨p', hp', hact'⟩ := h
    have hk := hsame k
    rw [hp', Option.map_some] at hk
    obtain ⟨p, hp, heq⟩ := Option.map_eq_some_iff.mp hk.symm
    exact ⟨p, hp, (congrArg Prod.fst heq).trans hact'⟩
  obtain ⟨⟨k, hk⟩, hteams, t, ht⟩ := hd
  refine ⟨⟨k, hback k hk⟩, ?_, t, ?_⟩
  · intro u hu
    refine hteams u fun a ha => ?_
    rw [hfrozen]
    exact hu a (hback a ha)
  · intro a ha
    obtain ⟨p', hp', hteam⟩ := ht a (hlive a ha)
    obtain ⟨p, hp, hact⟩ := ha
    obtain ⟨p'', hp'', -, hteam'⟩ := hlookup a p hp
    rw [hp'] at hp''
    cases hp''
    exact ⟨p, hp, hteam'.symm.trans hteam⟩

theorem Undrawn.kept (h : Undrawn s) (hstart : s'.gameStarted = s.gameStarted)
    (hstatus : s'.gameResult.status = .NOT_READY → s.gameResult.status = .NOT_READY)
    (hfrozen : s'.frozenPlayers = s.frozenPlayers)
    (hsame : ∀ k : ℕ, (s'.players[k]?).map (fun p => (p.isActive, p.teamNumber)) =
      (s.players[k]?).map (fun p => (p.isActive, p.teamNumber))) : Undrawn s' := by
  intro hstart' hstatus' hd
  exact h (hstart.symm.trans hstart') (hstatus hstatus') (drawn_congr hfrozen hsame hd)

theorem advanceTick_table (b : GameMonitor2) (id tick : ℕ) :
    Aged b.players (b.advanceTick id tick).players ∧
      ∀ k : ℕ, ((b.advanceTick id tick).players[k]?).map (fun p => (p.isActive, p.teamNumber)) =
        (b.players[k]?).map (fun p => (p.isActive, p.teamNumber)) := by
  rcases advanceTick_cases b id tick with heq | ⟨p, hp, heq⟩
  · rw [heq]
    exact ⟨.refl _, fun _ => rfl⟩
  · rw [heq]
    refine ⟨aged_insert hp rfl fun hdead => hdead, fun k => ?_⟩
    show ((b.players.insert id { p with tick })[k]?).map _ = _
    rw [Table.getElem?_insert]
    by_cases hk : k = id
    · rw [if_pos hk, hk, hp]
      rfl
    · rw [if_neg hk]

theorem Undrawn.latchDue {b : GameMonitor2} (h : Undrawn b) : Undrawn b.latchDue := by
  obtain ⟨r, cs, heq⟩ := latchDue_eq_withResult b
  refine h.kept (by rw [heq]; rfl) ?_ (by rw [heq]; rfl) (fun k => by rw [heq]; rfl)
  intro hstatus
  by_contra hover
  rw [latchDue_over hover] at hstatus
  exact hover hstatus

theorem Undrawn.advanceTick {b : GameMonitor2} (h : Undrawn b) (id tick : ℕ) :
    Undrawn (b.advanceTick id tick) := by
  obtain ⟨hfrozen, hstarted, hresult, -, -⟩ := advanceTick_fields b id tick
  exact h.kept hstarted (fun hs => by rw [← hresult]; exact hs) hfrozen
    (advanceTick_table b id tick).2

theorem turn_startTick {b : GameMonitor2} (hb : Sound b) (hstart : b.gameStarted = true)
    (hplayers : b.players = s.players) (id tick : ℕ) :
    Turn s (b.latchStart.advanceTick id tick).latchDue := by
  obtain ⟨r, cs, hlatch⟩ := latchStart_eq_withResult b
  obtain ⟨r', cs', hdue⟩ := latchDue_eq_withResult (b.latchStart.advanceTick id tick)
  have hundrawn : Undrawn b.latchStart :=
    undrawn_of_latch (latchStart_of_drawn hb hstart) ⟨r, cs, hlatch⟩
  refine ⟨fun hneat => ?_, fun _ => (hundrawn.advanceTick id tick).latchDue⟩
  have haged := (advanceTick_table b.latchStart id tick).1
  rw [hdue]
  refine Aged.neat haged ?_
  rw [hlatch]
  show Neat b.players
  rw [hplayers]
  exact hneat

theorem turn_onGameTick (h : Sound s) {id tick : ℕ} (hrun : s.onGameTick id tick = .ok s') :
    Turn s s' := by
  by_cases hc : s.players.contains id = true
  · by_cases hstart : s.gameStarted = false ∧ tick > s.gameStartsAfterTickCount
    · obtain ⟨cs, -, hok⟩ := onGameTick_starts h hc hstart.1 hstart.2
      rw [hrun] at hok
      cases hok
      have hlaunched : Sound { s with gameLaunched := true } := ⟨h.host, h.localName, h.players, h.frozen⟩
      exact turn_startTick (s := s) ((sound_freeze hlaunched).calling cs) rfl rfl id tick
    · obtain ⟨cs, -, hlaunch⟩ := launchGame_spec s tick
      rw [onGameTick_goesOn h hc hstart, hlaunch] at hrun
      cases hrun
      set l : GameMonitor2 := { s with gameLaunched := true }.calling cs with hl
      obtain ⟨r, cs', hdue⟩ := latchDue_eq_withResult (l.advanceTick id tick)
      refine ⟨fun hneat => ?_, fun hd => ?_⟩
      · rw [hdue]
        exact (advanceTick_table l id tick).1.neat hneat
      · have hl' : Undrawn l := hd.kept rfl (fun hs => hs) rfl fun _ => rfl
        exact (hl'.advanceTick id tick).latchDue
  · unfold onGameTick at hrun
    rw [if_pos (Bool.not_eq_true _ ▸ hc)] at hrun
    cases hrun
    exact .idle s

theorem turn_alliance (h : Sound s) {e : Event} (he : e.isAlliance = true) (hrun : s.handle e = .ok s') :
    Turn s s' := by
  rcases handle_alliance h he with ⟨-, hok⟩ | ⟨m, changed, cs, hedit, hedited, -, hno, hyes⟩
  · rw [hrun] at hok
    cases hok
    exact .idle s
  · cases changed with
    | false =>
      have hok := hno rfl
      rw [hrun] at hok
      cases hok
      refine ⟨(allianceEdit_unchanged hedit).neat, fun hd => hd.kept rfl id rfl fun k => ?_⟩
      have hk := congrArg (Option.map fun p : PlayerData => (p.isActive, p.teamNumber)) (hedited.same k)
      rw [Option.map_map, Option.map_map] at hk
      exact hk
    | true =>
      obtain ⟨m', hm', hok⟩ := hyes rfl
      rw [hrun] at hok
      cases hok
      have hb := (h.setPlayers hedited.wf fun _ => hedited.sameKeys).renumbered hm' cs
      set b : GameMonitor2 := { s with players := m' }.calling cs with hbdef
      obtain ⟨r, cs', hlatch⟩ : ∃ r cs', b.latchDraw = b.withResult r cs' := by
        unfold latchDraw
        split
        · split
          · exact (latchEndGameResult_spec b _).eq_withResult
          · exact ⟨_, _, (withResult_self b).symm⟩
        · exact ⟨_, _, (withResult_self b).symm⟩
      refine ⟨fun hneat => ?_, fun _ => ?_⟩
      · rw [hlatch]
        exact hm'.neat hedited.wf (hedited.named hneat.named)
      · intro hstart
        rw [hlatch] at hstart
        exact undrawn_of_latch (latchDraw_of_drawn hb hstart) ⟨r, cs', hlatch⟩
          (by rw [hlatch]; exact hstart)

theorem aged_kill (s : GameMonitor2) (id : ℕ) : Aged s.players (s.kill id).players := by
  cases hp : s.players[id]? with
  | none =>
    simp only [kill, hp]
    exact .refl _
  | some p =>
    rw [kill_eq hp]
    exact aged_insert hp rfl fun _ => rfl

theorem turn_kill (s : GameMonitor2) (id : ℕ) {j : GameMonitor2}
    (hdraw : (s.kill id).gameStarted = true → (s.kill id).Drawn →
      j = (s.kill id).latchEndGameResult (-1))
    (hwith : ∃ r cs, j = (s.kill id).withResult r cs) : Turn s j := by
  obtain ⟨r, cs, heq⟩ := hwith
  refine ⟨fun hneat => ?_, fun _ hstart => ?_⟩
  · rw [heq]
    exact (aged_kill s id).neat hneat
  · have hstart' : (s.kill id).gameStarted = true := by
      rw [heq] at hstart
      exact hstart
    exact undrawn_of_latch (hdraw hstart') ⟨r, cs, heq⟩ hstart

theorem step_turn (h : Sound s) {e : Event} (hstep : s.step e = some s') : Turn s s' := by
  have hrun := ok_of_step hstep
  cases e with
  | superEnumPlayerReply dplayId name =>
    simp only [handle, onDplaySuperEnumPlayerReply] at hrun
    split at hrun
    · rename_i hc
      exact turn_addPlayer h hc.1 _ hc.2.2.ne' hc.2.1 hrun
    · cases hrun
      exact .idle s
  | createOrForwardPlayer command dplayId name =>
    simp only [handle, onDplayCreateOrForwardPlayer] at hrun
    split at hrun
    · rename_i hc
      exact turn_addPlayer h hc.2.1 _ hc.2.2.2.ne' hc.2.2.1 hrun
    · cases hrun
      exact .idle s
  | deletePlayer dplayId =>
    simp only [handle] at hrun
    rw [onDplayDeletePlayer_eq h] at hrun
    split at hrun
    · cases hrun
      exact .idle s
    rename_i hc
    split at hrun
    · rename_i hstart
      exact turn_removePlayer h hstart (by simpa using fun h0 => hc (Or.inr h0)) hrun
    · rename_i hstart
      simp only [Bool.not_eq_false] at hstart
      cases hrun
      obtain ⟨r, cs, heq⟩ := latchVerdict_eq_withResult s
      refine ⟨fun hneat => by rw [heq]; exact hneat, fun _ => ?_⟩
      exact undrawn_of_latch (latchVerdict_of_drawn h hstart) ⟨r, cs, heq⟩
  | status sourceDplayId mapName maxUnits slot side isWatcher isAI => exact turn_onStatus h hrun
  | chat sourceDplayId chat => exact turn_alliance h rfl hrun
  | alliance subjectDpid objectDpid isAllied => exact turn_alliance h rfl hrun
  | teamSelection fromDplayId teamNumber => exact turn_alliance h rfl hrun
  | unitDied sourceDplayId unitId =>
    simp only [handle] at hrun
    rw [onUnitDied_eq h] at hrun
    split at hrun
    · cases hrun
      exact .idle s
    split at hrun
    · cases hrun
    split at hrun
    · cases hrun
      exact turn_kill s sourceDplayId (latchDeath_of_drawn (sound_kill h sourceDplayId))
        (latchDeath_eq_withResult _)
    · cases hrun
      exact .idle s
  | rejectOther sourceDplayId rejectedDplayId =>
    simp only [handle] at hrun
    rw [onRejectOther_eq h] at hrun
    split at hrun
    · cases hrun
      exact .idle s
    rename_i hc
    split at hrun
    · rename_i hstart
      exact turn_removePlayer h hstart (by simpa using fun h0 => hc (Or.inr h0)) hrun
    · cases hrun
      exact turn_kill s rejectedDplayId (latchVerdict_of_drawn (sound_kill h rejectedDplayId))
        (latchVerdict_eq_withResult _)
  | gameTick sourceDplayId tick => exact turn_onGameTick h hrun
  | reset =>
    cases hrun
    exact turn_notStarted rfl fun _ => neat_empty

/-- What every state has besides being valid. -/
structure Tidy (s : GameMonitor2) : Prop where
  valid : Valid s
  neat : Neat s.players
  undrawn : Undrawn s

theorem Reachable.tidy {c : Setup} (h : Reachable c s) : Tidy s := by
  obtain ⟨hhost, hlocal, hr⟩ := h
  refine hr.invariant (P := Tidy) ⟨valid_new hhost hlocal, neat_empty, fun hno => by cases hno⟩ ?_
  intro t e t' hx _ hstep
  obtain ⟨hv, hneat, hundrawn⟩ := hx
  have hturn := step_turn hv.sound hstep
  exact ⟨hv.outcome (step_outcome hv.sound hstep), hturn.table hneat, hturn.drawn hundrawn⟩

/-! ### Recognising the line -/

theorem lastWord_spec {chat word : Text} (h : lastWord chat = some word) : ' ' ∉ word := by
  simp only [lastWord] at h
  split at h
  · cases h
    intro hmem
    have hno := List.mem_takeWhile_imp (List.mem_reverse.mp hmem)
    simp at hno
  · cases h

theorem lastWord_append (pre : Text) {word : Text} (hblank : ' ' ∉ word) (hne : word ≠ []) :
    lastWord (pre ++ ' ' :: word) = some word := by
  have hall : ∀ c ∈ word.reverse, decide (c ≠ ' ') = true := by
    intro c hc
    rw [decide_eq_true_eq]
    intro heq
    obtain rfl := heq
    exact hblank (List.mem_reverse.mp hc)
  have hword : ((pre ++ ' ' :: word).reverse.takeWhile (· ≠ ' ')).reverse = word := by
    rw [List.reverse_append, List.reverse_cons, List.append_assoc, List.takeWhile_append_of_pos hall]
    simp
  simp only [lastWord]
  rw [hword, if_pos ⟨by simp, hne⟩]

/-- The line that makes or breaks an alliance. -/
def allianceLine (isAllied : Bool) (name other : Text) : Text :=
  if isAllied then makeAlliancePrototype name other else breakAlliancePrototype name other

theorem allianceLine_split (isAllied : Bool) (name other : Text) :
    ∃ pre, allianceLine isAllied name other = pre ++ ' ' :: other := by
  cases isAllied with
  | true => exact ⟨"<".toList ++ name ++ ">  allied with".toList, by
      simp [allianceLine, makeAlliancePrototype]⟩
  | false => exact ⟨"<".toList ++ name ++ ">  broke alliance with".toList, by
      simp [allianceLine, breakAlliancePrototype]⟩

theorem make_inj {name other other' : Text}
    (h : makeAlliancePrototype name other = makeAlliancePrototype name other') : other = other' := by
  simpa [makeAlliancePrototype] using h

theorem break_inj {name other other' : Text}
    (h : breakAlliancePrototype name other = breakAlliancePrototype name other') : other = other' := by
  simpa [breakAlliancePrototype] using h

theorem make_ne_break (name other other' : Text) :
    makeAlliancePrototype name other ≠ breakAlliancePrototype name other' := by
  simp [makeAlliancePrototype, breakAlliancePrototype]

theorem getPlayerDpidByName_unique {m : Players} (hw : m.Wf) {k : ℕ} {p : PlayerData}
    (hp : m[k]? = some p) (hunique : ∀ (a : ℕ) (q : PlayerData), m[a]? = some q → q.name = p.name → a = k) :
    getPlayerDpidByName m p.name = k := by
  unfold getPlayerDpidByName
  cases hf : m.toList.find? fun kp => kp.2.name = p.name with
  | none =>
    rw [List.find?_eq_none] at hf
    exact absurd (decide_eq_true rfl) (hf (k, p) (Table.mem_toList.mpr hp))
  | some kp =>
    obtain ⟨a, q⟩ := kp
    have hq := Table.mem_toList.mp (List.mem_of_find?_eq_some hf)
    have hname : q.name = p.name := by simpa using List.find?_some hf
    show q.dplayid = k
    rw [(hw.key a q hq).1]
    exact hunique a q hq hname

section recognition

variable {m : Players} {k a : ℕ} {p q : PlayerData}

theorem updateAlliances_line (hw : m.Wf) (hp : m[k]? = some p) (hq : m[a]? = some q) (hne : k ≠ a)
    (hname : q.name ≠ []) (hunique : ∀ (b : ℕ) (r : PlayerData), m[b]? = some r → r.name = q.name → b = a)
    (hblank : ' ' ∉ q.name) (isAllied : Bool) :
    updateAlliances m k (allianceLine isAllied p.name q.name) =
      some (m.insert k { p with
        allies := if isAllied then p.allies.insert a else p.allies.erase a }) := by
  obtain ⟨pre, hpre⟩ := allianceLine_split isAllied p.name q.name
  have hlast : lastWord (allianceLine isAllied p.name q.name) = some q.name := by
    rw [hpre]
    exact lastWord_append pre hblank hname
  have hk : k ≠ 0 := (hw.key k p hp).2
  have ha : a ≠ 0 := (hw.key a q hq).2
  have hdpid := getPlayerDpidByName_unique hw hq hunique
  have hother : ¬ (a = 0 ∨ a = k) := fun h => h.elim ha (Ne.symm hne)
  simp only [updateAlliances, if_neg hk, hlast, hdpid, if_neg hother, hp, Option.getD_some, modifyAllies]
  cases isAllied with
  | true => simp [allianceLine]
  | false => simp [allianceLine, Ne.symm (make_ne_break p.name q.name q.name)]

theorem updateAlliances_blank (hp : m[k]? = some p) (hk : k ≠ 0) (hblank : ' ' ∈ q.name)
    (isAllied : Bool) : updateAlliances m k (allianceLine isAllied p.name q.name) = none := by
  simp only [updateAlliances, if_neg hk, hp, Option.getD_some]
  cases hlast : lastWord (allianceLine isAllied p.name q.name) with
  | none => rfl
  | some word =>
    have hne : q.name ≠ word := by
      intro heq
      obtain rfl := heq
      exact lastWord_spec hlast hblank
    simp only []
    split
    · rfl
    cases isAllied with
    | true =>
      have h1 : makeAlliancePrototype p.name q.name ≠ makeAlliancePrototype p.name word :=
        fun h => hne (make_inj h)
      simp [allianceLine, h1, make_ne_break]
    | false =>
      have h1 : breakAlliancePrototype p.name q.name ≠ breakAlliancePrototype p.name word :=
        fun h => hne (break_inj h)
      simp [allianceLine, h1, Ne.symm (make_ne_break p.name word q.name)]

end recognition

/-! ### The two ways compared -/

/-- The same players, frozen players and result. -/
structure SameOutcome (s s' : GameMonitor2) : Prop where
  players : s.players = s'.players
  frozen : s.frozenPlayers = s'.frozenPlayers
  result : s.gameResult = s'.gameResult

theorem latchDraw_calling (b : GameMonitor2) (cs : List Call) :
    (b.calling cs).latchDraw = b.latchDraw.calling cs := by
  have hverdict : (b.calling cs).verdict = b.verdict := rfl
  unfold latchDraw
  rw [hverdict]
  cases b.verdict with
  | none => rfl
  | some w =>
    simp only []
    split
    · rename_i hw
      by_cases hs : b.gameResult.status = .NOT_READY
      · rw [latch_negative hs hw, latch_negative (s := b.calling cs) hs hw]
        rfl
      · rw [show b.latchEndGameResult w = b from if_pos hs]
        exact if_pos hs
    · rfl

theorem latchDraw_fields (b : GameMonitor2) :
    b.latchDraw.players = b.players ∧ b.latchDraw.frozenPlayers = b.frozenPlayers := by
  unfold latchDraw
  split
  · split
    · obtain ⟨r, cs, heq⟩ := (latchEndGameResult_spec b _).eq_withResult
      rw [heq]
      exact ⟨rfl, rfl⟩
    · exact ⟨rfl, rfl⟩
  · exact ⟨rfl, rfl⟩

theorem Tidy.latchDraw_result (h : Tidy s) : s.latchDraw.gameResult = s.gameResult := by
  cases hstart : s.gameStarted with
  | false => rw [latchDraw_notStarted h.valid.sound hstart]
  | true =>
    unfold latchDraw
    cases hv : s.verdict with
    | none => rfl
    | some w =>
      simp only []
      split
      · rename_i hw
        by_cases hs : s.gameResult.status = .NOT_READY
        · exact absurd (verdict_nonneg h.valid.sound hv (h.undrawn hstart hs)) (not_le.mpr hw)
        · rw [show s.latchEndGameResult w = s from if_pos hs]
      · rfl

theorem onChat_recognised {k : ℕ} {p : PlayerData} (hp : s.players[k]? = some p) {chat : Text}
    {m : Players} (hupd : updateAlliances s.players k chat = some m) :
    ∃ cs, s.onChat k chat = ({ s with players := m }.calling cs).onAlliancesChanged := by
  obtain ⟨cs, -, hcall⟩ := s.call_silent (c := .onChat chat (k = s.localDplayId)) rfl
  refine ⟨cs, ?_⟩
  have hupd' : updateAlliances (s.calling cs).players k chat = some m := hupd
  unfold onChat
  rw [if_neg (by rw [Table.contains_of_getElem? hp]; decide), hcall]
  simp only [hupd']
  rfl

theorem onChat_ignored {k : ℕ} {p : PlayerData} (hp : s.players[k]? = some p) {chat : Text}
    (hupd : updateAlliances s.players k chat = none) : ∃ cs, s.onChat k chat = .ok (s.calling cs) := by
  obtain ⟨cs, -, hcall⟩ := s.call_silent (c := .onChat chat (k = s.localDplayId)) rfl
  refine ⟨cs, ?_⟩
  have hupd' : updateAlliances (s.calling cs).players k chat = none := hupd
  unfold onChat
  rw [if_neg (by rw [Table.contains_of_getElem? hp]; decide), hcall]
  simp only [hupd']
  rfl

section compared

variable {k a : ℕ} {p q : PlayerData} {isAllied : Bool}

/-- The table after an alliance is declared. -/
def declared (m : Players) (k a : ℕ) (p : PlayerData) (isAllied : Bool) : Players :=
  m.insert k { p with allies := if isAllied then p.allies.insert a else p.allies.erase a }

theorem declared_edited (h : Sound s) (hp : s.players[k]? = some p) (hq : s.players[a]? = some q) :
    Edited s.players (declared s.players k a p isAllied) := by
  refine edited_insert h.players hp rfl ?_
  intro b hb
  simp only [] at hb
  split at hb
  · rcases mem_of_mem_insert_set hb with hold | hnew
    · exact h.players.allies k p hp b hold
    · exact ⟨q, by rw [hnew]; exact hq⟩
  · exact h.players.allies k p hp b (Std.ExtTreeSet.mem_of_mem_erase hb)

theorem declared_same (hp : s.players[k]? = some p) (hsame : p.allies.contains a = isAllied) :
    declared s.players k a p isAllied = s.players := by
  rw [declared, ← hsame, restated_allies]
  exact Table.insert_eq_self hp

theorem onAlliance_same (hp : s.players[k]? = some p) (hq : s.players[a]? = some q)
    (hsame : p.allies.contains a = isAllied) : s.onAlliance k a isAllied = .ok s := by
  have heq := declared_same hp hsame
  rw [declared] at heq
  simp only [onAlliance, hp, hq, heq]
  rw [if_neg (not_not.mpr hsame)]
  rfl

theorem onAlliance_changed (hp : s.players[k]? = some p) (hq : s.players[a]? = some q)
    (hchange : p.allies.contains a ≠ isAllied) :
    s.onAlliance k a isAllied =
      onAlliancesChanged { s with players := declared s.players k a p isAllied } := by
  simp only [onAlliance, hp, hq]
  rw [if_pos hchange]
  rfl

theorem contains_declared (p : PlayerData) (a : ℕ) (isAllied : Bool) :
    (if isAllied then p.allies.insert a else p.allies.erase a).contains a = isAllied := by
  cases isAllied with
  | true => simp
  | false => simp

theorem changed_ne {m' : Players} (hp : s.players[k]? = some p)
    (hchange : p.allies.contains a ≠ isAllied)
    (hm' : Numbered (declared s.players k a p isAllied) m') : m' ≠ s.players := by
  intro heq
  rw [heq] at hm'
  obtain ⟨r, hr, hcore⟩ := core_lookup hm'.core hp
  rw [declared, Table.getElem?_insert, if_pos rfl] at hr
  have hallies := allies_of_core hcore
  rw [← Option.some.inj hr] at hallies
  refine hchange ?_
  rw [← hallies]
  exact contains_declared p a isAllied

end compared

/-- The chat line and the packet have the same outcome exactly if, for a name with a blank, the
packet makes no change, and, for a name without one, the packet makes a change or nobody has
died since the numbers were made. -/
theorem chat_like_alliance_iff {c : Setup} (h : Reachable c s) {k a : ℕ} {p q : PlayerData}
    (hp : s.players[k]? = some p) (hq : s.players[a]? = some q) (hne : k ≠ a)
    (hunique : ∀ (b : ℕ) (r : PlayerData), s.players[b]? = some r → r.name = q.name → b = a)
    (isAllied : Bool) :
    ∃ t u, s.onChat k (allianceLine isAllied p.name q.name) = .ok t ∧
      s.onAlliance k a isAllied = .ok u ∧
      (SameOutcome t u ↔ (' ' ∈ q.name → p.allies.contains a = isAllied) ∧
        (' ' ∉ q.name → p.allies.contains a = isAllied → UpToDate s.players)) := by
  have htidy := h.tidy
  have hs := htidy.valid.sound
  have hedit : Edited s.players (declared s.players k a p isAllied) := declared_edited hs hp hq
  have hsound := hs.setPlayers hedit.wf fun _ => hedit.sameKeys
  obtain ⟨m', cs, hm', -, hrun⟩ := onAlliancesChanged_spec hsound
  by_cases hblank : ' ' ∈ q.name
  · obtain ⟨cs', hchat⟩ :=
      onChat_ignored hp (updateAlliances_blank hp (hs.players.key k p hp).2 hblank isAllied)
    by_cases hsame : p.allies.contains a = isAllied
    · refine ⟨_, s, hchat, onAlliance_same hp hq hsame, ?_⟩
      exact ⟨fun _ => ⟨fun _ => hsame, fun hno => absurd hblank hno⟩, fun _ => ⟨rfl, rfl, rfl⟩⟩
    · refine ⟨_, _, hchat, (onAlliance_changed hp hq hsame).trans hrun, ?_⟩
      have hplayers := (latchDraw_fields ({ s with players := m' }.calling cs)).1
      constructor
      · intro hx
        obtain ⟨heq, -, -⟩ := hx
        exact absurd (heq.trans hplayers).symm (changed_ne hp hsame hm')
      · intro hcond
        exact absurd (hcond.1 hblank) hsame
  · obtain ⟨cs', hchat⟩ := onChat_recognised hp (updateAlliances_line hs.players hp hq hne
      (htidy.neat.named a q hq) hunique hblank isAllied)
    obtain ⟨m'', cs'', hm'', -, hrun'⟩ := onAlliancesChanged_spec (hsound.calling cs')
    have hm : m'' = m' := Except.ok.inj (hm''.run.symm.trans hm'.run)
    rw [hm] at hrun'
    have hchat' : s.onChat k (allianceLine isAllied p.name q.name) =
        .ok (({ s with players := m' }.latchDraw.calling cs').calling cs'') := by
      rw [hchat]
      refine hrun'.trans ?_
      rw [← latchDraw_calling, ← latchDraw_calling]
      rfl
    by_cases hsame : p.allies.contains a = isAllied
    · refine ⟨_, s, hchat', onAlliance_same hp hq hsame, ?_⟩
      rw [declared_same hp hsame] at hm'
      have hiff := renumber_same_iff hs.players htidy.neat hm'
      have hfields := latchDraw_fields { s with players := m' }
      constructor
      · intro hx
        obtain ⟨heq, -, -⟩ := hx
        exact ⟨fun hyes => absurd hyes hblank, fun _ _ => hiff.mp (hfields.1.symm.trans heq)⟩
      · intro hcond
        have heq : m' = s.players := hiff.mpr (hcond.2 hblank hsame)
        rw [heq]
        exact ⟨(latchDraw_fields s).1, (latchDraw_fields s).2, htidy.latchDraw_result⟩
    · refine ⟨_, _, hchat', (onAlliance_changed hp hq hsame).trans hrun, ?_⟩
      rw [latchDraw_calling]
      exact ⟨fun _ => ⟨fun hyes => absurd hyes hblank, fun _ hno => absurd hno hsame⟩,
        fun _ => ⟨rfl, rfl, rfl⟩⟩

/-! ### A name with a blank -/

def roster (m : Players) : List (ℕ × Text × List ℕ) :=
  m.toList.map fun kp => (kp.1, kp.2.name, kp.2.allies.toList)

theorem mem_roster {m : Players} {k : ℕ} {name : Text} {allies : List ℕ}
    (h : (k, name, allies) ∈ roster m) :
    ∃ p : PlayerData, m[k]? = some p ∧ p.name = name ∧ p.allies.toList = allies := by
  unfold roster at h
  obtain ⟨⟨a, p⟩, hmem, heq⟩ := List.mem_map.mp h
  simp only [Prod.mk.injEq] at heq
  obtain ⟨rfl, hname, hallies⟩ := heq
  exact ⟨p, Table.mem_toList.mp hmem, hname, hallies⟩

theorem roster_mem {m : Players} {k : ℕ} {p : PlayerData} (hp : m[k]? = some p) :
    (k, p.name, p.allies.toList) ∈ roster m :=
  List.mem_map.mpr ⟨(k, p), Table.mem_toList.mpr hp, rfl⟩

theorem ok_of_toOption {x : Except Failure GameMonitor2} {t : GameMonitor2} (h : x.toOption = some t) :
    x = .ok t := by
  cases x with
  | error e => cases h
  | ok y => rw [Option.some.inj h]

theorem roster_pair {m : Players} {n n' : Text} (h : roster m = [(1, n, []), (2, n', [])]) (hne : n ≠ n') :
    ∃ p q : PlayerData, m[1]? = some p ∧ m[2]? = some q ∧ p.name = n ∧ q.name = n' ∧ p.allies.toList = [] ∧
      ∀ (b : ℕ) (r : PlayerData), m[b]? = some r → (r.name = q.name → b = 2) ∧ (r.name = p.name → b = 1) := by
  obtain ⟨p, hp, hpn, hpa⟩ := @mem_roster m 1 n [] (by simp [h])
  obtain ⟨q, hq, hqn, -⟩ := @mem_roster m 2 n' [] (by simp [h])
  refine ⟨p, q, hp, hq, hpn, hqn, hpa, ?_⟩
  intro b r hr
  have hmem := roster_mem hr
  rw [h] at hmem
  simp only [List.mem_cons, Prod.mk.injEq, List.not_mem_nil, or_false] at hmem
  rw [hpn, hqn]
  rcases hmem with ⟨rfl, hrn, -⟩ | ⟨rfl, hrn, -⟩
  · rw [hrn]
    exact ⟨fun heq => absurd heq hne, fun _ => rfl⟩
  · rw [hrn]
    exact ⟨fun _ => rfl, fun heq => absurd heq.symm hne⟩

/-- In the duel `a` allies with `b` by chat or by packet. -/
theorem chat_like_alliance_duel : ∃ s t u : GameMonitor2, Reachable duel s ∧
    s.onChat 1 "<a>  allied with b".toList = .ok t ∧ s.onAlliance 1 2 true = .ok u ∧ SameOutcome t u := by
  have hrun : (run step (.new duel) duelEvents).map (fun s : GameMonitor2 => roster s.players) =
      some [(1, "a".toList, []), (2, "b".toList, [])] := by decide +kernel
  obtain ⟨s, hs, hroster⟩ := Option.map_eq_some_iff.mp hrun
  have hreach : Reachable duel s := reachable_of_run (by decide) (by decide) hs
  obtain ⟨p, q, hp, hq, hpn, hqn, hpa, hunique⟩ := roster_pair hroster (by decide)
  obtain ⟨t, u, hchat, halliance, hiff⟩ :=
    chat_like_alliance_iff hreach hp hq (by decide) (fun b r hr => (hunique b r hr).1) true
  rw [hpn, hqn] at hchat
  refine ⟨s, t, u, hreach, hchat, halliance, hiff.mpr ⟨?_, ?_⟩⟩
  · intro hblank
    rw [hqn] at hblank
    exact absurd hblank (by decide)
  · intro _ hallied
    rw [Std.ExtTreeSet.contains_iff_mem, ← Std.ExtTreeSet.mem_toList, hpa] at hallied
    cases hallied

def blankEvents : List Event :=
  [.createOrForwardPlayer 8 1 "a".toList, .createOrForwardPlayer 8 2 "b b".toList]

/-- The chat line is not recognised when the other player is called `b b`. -/
theorem blank_in_name : ∃ (s t u : GameMonitor2) (p q : PlayerData), Reachable duel s ∧
    s.players[1]? = some p ∧ s.players[2]? = some q ∧
    (∀ (b : ℕ) (r : PlayerData), s.players[b]? = some r →
      (r.name = q.name → b = 2) ∧ (r.name = p.name → b = 1)) ∧
    s.onChat 1 (allianceLine true p.name q.name) = .ok t ∧ s.onAlliance 1 2 true = .ok u ∧
    t.players ≠ u.players := by
  have hrun : (run step (.new duel) blankEvents).map (fun s : GameMonitor2 => roster s.players) =
      some [(1, "a".toList, []), (2, "b b".toList, [])] := by decide +kernel
  have hchat : ((run step (.new duel) blankEvents).bind fun s : GameMonitor2 =>
      (s.onChat 1 "<a>  allied with b b".toList).toOption).map (fun t : GameMonitor2 => roster t.players) =
      some [(1, "a".toList, []), (2, "b b".toList, [])] := by decide +kernel
  have halliance : ((run step (.new duel) blankEvents).bind fun s : GameMonitor2 =>
      (s.onAlliance 1 2 true).toOption).map (fun u : GameMonitor2 => roster u.players) =
      some [(1, "a".toList, [2]), (2, "b b".toList, [])] := by decide +kernel
  obtain ⟨s, hs, hroster⟩ := Option.map_eq_some_iff.mp hrun
  rw [hs, Option.bind_some] at hchat halliance
  obtain ⟨p, q, hp, hq, hpn, hqn, -, hunique⟩ := roster_pair hroster (by decide)
  obtain ⟨t, ht, htr⟩ := Option.map_eq_some_iff.mp hchat
  obtain ⟨u, hu, hur⟩ := Option.map_eq_some_iff.mp halliance
  refine ⟨s, t, u, p, q, reachable_of_run (by decide) (by decide) hs, hp, hq, hunique, ?_,
    ok_of_toOption hu, ?_⟩
  · rw [hpn, hqn]
    exact ok_of_toOption ht
  · intro hsame
    rw [hsame, hur] at htr
    exact absurd htr (by decide)

end GameMonitor2

end Gpgnet4TA.App
