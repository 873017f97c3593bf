import Gpgnet4TA.Tareplay.DemoDirectory

/-!
# The game table of the demo compiler

`Hello` and `Reconnect` make the entry of a game, `GameInfo` gives it its id. Until then the
entry has the id 0, and this is what its file is named after and what it expires under.
`Watched` notes which entries have had their `GameInfo`, and of the whole run which demo files
were begun, for which game, and by which games before their `GameInfo`. A game is known by its id.
-/

namespace Gpgnet4TA.Tareplay.TaDemoCompiler
open Gpgnet4TA.Lib Gpgnet4TA.Tapacket

/-! ### What the table says of a game -/

structure Entry where
  gameId : ℕ := 0
  started : Bool := false
  tempFileName : String := ""
  finalFileName : String := ""
  deriving DecidableEq

def GameContext.entry (game : GameContext) : Entry :=
  ⟨game.gameId, game.demoCompilation.isSome, game.tempFileName, game.finalFileName⟩

def entries (s : TaDemoCompiler) (k : ℕ) : Option Entry := s.games[k]?.map GameContext.entry

variable {s : TaDemoCompiler}

theorem entry_gameAt (k : ℕ) : (gameAt s.games k).entry = (s.entries k).getD {} := by
  rw [gameAt, entries]
  cases s.games[k]? <;> rfl

@[simp] theorem entries_setGame (gameId : ℕ) (game : GameContext) :
    (s.setGame gameId game).entries = Function.update s.entries gameId (some game.entry) := by
  funext k
  rw [entries, setGame, Table.getElem?_insert, Function.update_apply]
  split <;> rfl

@[simp] theorem entries_setUser (socket : ℕ) (user : UserContext) :
    (s.setUser socket user).entries = s.entries := rfl

theorem entries_setGame_same {gameId : ℕ} {game game' : GameContext} (h : s.games[gameId]? = some game)
    (hentry : game'.entry = game.entry) : (s.setGame gameId game').entries = s.entries := by
  rw [entries_setGame, hentry]
  apply Function.update_eq_self_iff.mpr
  rw [entries, h]
  rfl

theorem entries_register (socket gameId playerDpId : ℕ) :
    (s.register socket gameId playerDpId).entries =
      Function.update s.entries gameId (some ((s.entries gameId).getD {})) := by
  rw [← entry_gameAt, register, entries_setGame]
  rfl

theorem entries_onMove (user : UserContext) (moves : Bytes) (clock : Clock) :
    (s.onMove user moves clock).entries = s.entries ∧ (s.onMove user moves clock).fileOps = s.fileOps := by
  obtain h | ⟨game, hgame, -, h | ⟨output, hout, -, h⟩⟩ := onMove_cases s user clock moves
  · rw [h]
    exact ⟨rfl, rfl⟩
  · rw [h]
    exact ⟨entries_setGame_same hgame rfl, rfl⟩
  · rw [h]
    refine ⟨entries_setGame_same hgame ?_, rfl⟩
    simp [GameContext.entry, GameContext.written, hout]

theorem entries_onGamePlayer (user : UserContext) (msg : GamePlayerMessage) :
    (s.onGamePlayer user msg).entries = s.entries ∧ (s.onGamePlayer user msg).fileOps = s.fileOps := by
  obtain h | ⟨game, socket, hgame, -, h⟩ := onGamePlayer_cases s user msg
  · rw [h]
    exact ⟨rfl, rfl⟩
  · rw [h, entries_setUser]
    exact ⟨entries_setGame_same hgame rfl, rfl⟩

theorem entries_onUnitData (user : UserContext) (unitData : Bytes) :
    (s.onUnitData user unitData).entries = s.entries ∧ (s.onUnitData user unitData).fileOps = s.fileOps := by
  obtain h | ⟨game, hgame, h⟩ := onUnitData_cases s user unitData
  · rw [h]
    exact ⟨rfl, rfl⟩
  · rw [h]
    exact ⟨entries_setGame_same hgame rfl, rfl⟩

theorem entries_onGameInfo (user : UserContext) (msg : GameInfoMessage) :
    (s.onGameInfo user msg).entries = Function.update s.entries user.gameId
      (some { (s.entries user.gameId).getD {} with gameId := user.gameId }) := by
  rw [← entry_gameAt, onGameInfo, entries_setGame]
  rfl

/-- The entry of a game that locks its players in; `started` tells whether the headers were
written. -/
def Entry.named (t : PathTemplate) (e : Entry) (started : Bool) : Entry where
  gameId := e.gameId
  started := started
  finalFileName := t.arg e.gameId
  tempFileName := t.arg e.gameId ++ ".part"

/-- Where the file has been made and a header is too long for it, the game has no stream. -/
theorem entries_onGamePlayerLoading (user : UserContext) (lockedIn : List ℕ) (clock : Clock) :
    ((s.onGamePlayerLoading user lockedIn clock).entries = s.entries ∧
      (s.onGamePlayerLoading user lockedIn clock).fileOps = s.fileOps) ∨
      ∃ e started begun, s.entries user.gameId = some e ∧ e.started = false ∧
        (started = true → begun = true) ∧
        (s.onGamePlayerLoading user lockedIn clock).entries =
          Function.update s.entries user.gameId (some (e.named s.demoPathTemplate started)) ∧
        (s.onGamePlayerLoading user lockedIn clock).fileOps = s.fileOps ++
          if begun = true then [.create (s.demoPathTemplate.arg e.gameId ++ ".part")] else [] := by
  obtain h | ⟨game, hgame, hnone, h⟩ := onGamePlayerLoading_cases s user clock lockedIn
  · rw [h]
    exact Or.inl ⟨rfl, rfl⟩
  · have he : s.entries user.gameId = some game.entry := by
      rw [entries, hgame]
      rfl
    have hfalse : game.entry.started = false := by
      rw [GameContext.entry, hnone]
      rfl
    have hlock : ∀ output, ({ s.lockIn game lockedIn with demoCompilation := output } : GameContext).entry =
        game.entry.named s.demoPathTemplate output.isSome := fun _ => rfl
    have hcommit : ∀ output, (s.afterCommit user.gameId game lockedIn output).entries =
        Function.update s.entries user.gameId
          (some (game.entry.named s.demoPathTemplate output.isSome)) := by
      intro output
      rw [← hlock, ← entries_setGame]
      rfl
    obtain ⟨-, h⟩ | ⟨-, -, h⟩ | ⟨-, -, h⟩ := h
    · refine Or.inr ⟨_, false, false, he, hfalse, id, ?_, ?_⟩
      · rw [h, entries_setGame]
        congr 1
        simp [GameContext.entry, lockIn, Entry.named, hnone]
      · rw [h]
        exact (List.append_nil _).symm
    · refine Or.inr ⟨_, true, true, he, hfalse, id, by rw [h, hcommit]; rfl, ?_⟩
      rw [h]
      rfl
    · refine Or.inr ⟨_, false, true, he, hfalse, fun _ => rfl, by rw [h, hcommit]; rfl, ?_⟩
      rw [h]
      rfl

theorem entries_closeExpiredGames (k : ℕ) :
    s.closeExpiredGames.entries k =
      if k ∈ expiredGameIds (s.games.map fun _ => countDown) then none else s.entries k := by
  rw [entries, closeExpiredGames_games]
  split
  · rfl
  · rw [Option.map_map]
    rfl

/-! ### Watching the table -/

/-- The game that a `GameInfo` is for. -/
def informs (s : TaDemoCompiler) : Event → Option ℕ
  | .readyRead socket (.gameInfo _) _ => if s.Speaks socket then some (s.contexts socket).gameId else none
  | _ => none

/-- The demo file that begins with this event: its game and the name that it is to have. -/
def begins (s : TaDemoCompiler) : Event → Option (ℕ × String)
  | .readyRead socket (.gamePlayerLoading lockedIn) clock =>
    let k := (s.contexts socket).gameId
    let s' := s.step (.readyRead socket (.gamePlayerLoading lockedIn) clock)
    if s'.fileOps = s.fileOps then none else (s'.entries k).map fun entry => (k, entry.finalFileName)
  | _ => none

/-- `disk` are the files there were at the start. `told` are the games that have had a `GameInfo`
since their entry was made. Of the whole run, `named` are the demo files begun and `early` the
games that began one before they had a `GameInfo`. -/
structure Watched where
  compiler : TaDemoCompiler
  disk : Finset String
  told : Finset ℕ
  early : Finset ℕ
  named : Finset (ℕ × String)

namespace Watched

def new (demoPathTemplate : PathTemplate) (minDemoSize : ℕ) (disk : Finset String) : Watched :=
  ⟨.new demoPathTemplate minDemoSize, disk, ∅, ∅, ∅⟩

def next (w : Watched) (e : Event) : Watched where
  compiler := w.compiler.step e
  disk := w.disk
  told := (w.told ∪ (w.compiler.informs e).toFinset).filter fun k => (w.compiler.step e).games.contains k
  early := w.early ∪ ((w.compiler.begins e).map Prod.fst).toFinset \ w.told
  named := w.named ∪ (w.compiler.begins e).toFinset

def step (w : Watched) (e : Event) : Option Watched := some (w.next e)

/-- Game ids are not zero. -/
def nonzeroIds (_ : Watched) : Event → Prop
  | .readyRead _ (.hello gameId _ _) _ | .readyRead _ (.reconnect gameId _) _ => gameId ≠ 0
  | _ => True

/-- The files in the demo directory. -/
def files (w : Watched) : Finset String := directory w.disk w.compiler

end Watched

/-- What one event does to the table and to the directory. -/
inductive Change (s : TaDemoCompiler) (e : Event) : Prop where
  | none (hsame : (s.step e).entries = s.entries) (hops : (s.step e).fileOps = s.fileOps)
    (hinforms : s.informs e = Option.none) (hbegins : s.begins e = Option.none)
  | made (gameId : ℕ) (hid : gameId ≠ 0)
    (hentries : (s.step e).entries = Function.update s.entries gameId (some ((s.entries gameId).getD {})))
    (hops : (s.step e).fileOps = s.fileOps)
    (hinforms : s.informs e = Option.none) (hbegins : s.begins e = Option.none)
  | told (gameId : ℕ) (hid : gameId ≠ 0)
    (hentries : (s.step e).entries =
      Function.update s.entries gameId (some { (s.entries gameId).getD {} with gameId }))
    (hops : (s.step e).fileOps = s.fileOps)
    (hinforms : s.informs e = some gameId) (hbegins : s.begins e = Option.none)
  | named (gameId : ℕ) (entry : Entry) (started begun : Bool) (hentry : s.entries gameId = some entry)
    (hnot : entry.started = false) (hopen : started = true → begun = true)
    (hentries : (s.step e).entries =
      Function.update s.entries gameId (some (entry.named s.demoPathTemplate started)))
    (hops : (s.step e).fileOps = s.fileOps ++
      if begun = true then [.create (s.demoPathTemplate.arg entry.gameId ++ ".part")] else [])
    (hinforms : s.informs e = Option.none)
    (hbegins : s.begins e =
      if begun = true then some (gameId, s.demoPathTemplate.arg entry.gameId) else Option.none)
  | closed (he : e = .timerEvent)

theorem change (w : Watched) {e : Event} (he : w.nonzeroIds e) : Change w.compiler e := by
  obtain ⟨s, disk, told, early, named⟩ := w
  dsimp only
  cases e with
  | newConnection addr => exact .none rfl rfl rfl rfl
  | disconnected socket => exact .none rfl rfl rfl rfl
  | timerEvent => exact .closed rfl
  | readyRead socket msg clock =>
    obtain ⟨hnot, h⟩ | ⟨gameId, playerDpId, playerName, rfl, -, h⟩ | ⟨gameId, playerDpId, rfl, -, h⟩ |
      ⟨hspeaks, h⟩ := onReadyRead_cases s clock socket msg
    · have hstep : s.step (.readyRead socket msg clock) = s := h
      refine .none (congrArg entries hstep) (congrArg fileOps hstep) ?_ ?_
      · cases msg with
        | gameInfo msg => exact if_neg hnot
        | _ => rfl
      · cases msg with
        | gamePlayerLoading lockedIn =>
          rw [begins]
          exact if_pos (congrArg fileOps hstep)
        | _ => rfl
    · refine .made gameId he ?_ ?_ rfl rfl
      · rw [step, h, onHello, entries_register, entries_setUser]
      · rw [step, h]
        rfl
    · refine .made gameId he ?_ ?_ rfl rfl
      · rw [step, h, onReconnect, entries_register, entries_setUser]
      · rw [step, h]
        rfl
    · have hid : (s.contexts socket).gameId ≠ 0 := hspeaks.2.1
      have hsame : ∀ {s' : TaDemoCompiler}, s.step (.readyRead socket msg clock) = s' →
          s'.entries = s.entries ∧ s'.fileOps = s.fileOps →
          (s.step (.readyRead socket msg clock)).entries = s.entries ∧
            (s.step (.readyRead socket msg clock)).fileOps = s.fileOps := by
        intro s' hs' hview
        rw [hs']
        exact hview
      cases msg with
      | hello gameId playerDpId playerName => exact .none (congrArg entries h) (congrArg fileOps h) rfl rfl
      | reconnect gameId playerDpId => exact .none (congrArg entries h) (congrArg fileOps h) rfl rfl
      | move moves =>
        obtain ⟨hentries, hops⟩ := hsame h (entries_onMove _ _ _)
        exact .none hentries hops rfl rfl
      | gamePlayer msg =>
        obtain ⟨hentries, hops⟩ := hsame h (entries_onGamePlayer _ _)
        exact .none hentries hops rfl rfl
      | unitData unitData =>
        obtain ⟨hentries, hops⟩ := hsame h (entries_onUnitData _ _)
        exact .none hentries hops rfl rfl
      | gameInfo msg =>
        refine .told _ hid ((congrArg entries h).trans (entries_onGameInfo _ _)) ?_ (if_pos hspeaks) rfl
        rw [step, h]
        rfl
      | gamePlayerLoading lockedIn =>
        have h : s.step (.readyRead socket (.gamePlayerLoading lockedIn) clock) =
          s.onGamePlayerLoading (s.contexts socket) lockedIn clock := h
        obtain hview | ⟨entry, started, begun, hentry, hnot, hopen, hset, hops⟩ :=
          entries_onGamePlayerLoading (s := s) (s.contexts socket) lockedIn clock
        · rw [← h] at hview
          exact .none hview.1 hview.2 rfl (if_pos hview.2)
        · rw [← h] at hset hops
          refine .named _ entry started begun hentry hnot hopen hset hops rfl ?_
          rw [begins, hops, hset, Function.update_self]
          cases begun with
          | false => exact if_pos (List.append_nil _)
          | true => exact if_neg (by simp)

/-! ### What the entries are -/

theorem contains_iff {k : ℕ} : s.games.contains k = true ↔ ∃ entry, s.entries k = some entry := by
  rw [Std.ExtTreeMap.contains_eq_isSome_getElem?, Option.isSome_iff_exists]
  constructor
  · intro h
    obtain ⟨game, hgame⟩ := h
    exact ⟨game.entry, by rw [entries, hgame]; rfl⟩
  · intro h
    obtain ⟨entry, hentry⟩ := h
    obtain ⟨game, hgame, -⟩ := Option.map_eq_some_iff.mp hentry
    exact ⟨game, hgame⟩

namespace Watched

variable {w : Watched} {e : Event}

/-- What is noted of the entry of one game: it has its id from the time of its `GameInfo`, and
its file is among those begun. -/
structure NotedAt (w : Watched) (k : ℕ) : Prop where
  id : ∀ entry, w.compiler.entries k = some entry → k ≠ 0 ∧ entry.gameId = if k ∈ w.told then k else 0
  listed : k ∈ w.told → ∃ entry, w.compiler.entries k = some entry
  file : ∀ entry, w.compiler.entries k = some entry → entry.started = true →
    entry.tempFileName = entry.finalFileName ++ ".part" ∧ (k, entry.finalFileName) ∈ w.named

/-- A demo is named after its game, or after no game where it began early. -/
structure Recorded (w : Watched) : Prop where
  named : ∀ (k : ℕ) (name : String), (k, name) ∈ w.named → k ≠ 0 ∧
    (name = w.compiler.demoPathTemplate.arg k ∨ name = w.compiler.demoPathTemplate.arg 0 ∧ k ∈ w.early)
  early : ∀ k ∈ w.early, (k, w.compiler.demoPathTemplate.arg 0) ∈ w.named

structure Tracked (w : Watched) : Prop where
  noted : ∀ k, NotedAt w k
  recorded : Recorded w

theorem tracked_new (t : PathTemplate) (n : ℕ) (disk : Finset String) : Tracked (new t n disk) := by
  constructor
  · intro k
    have hnone : (new t n disk).compiler.entries k = none := rfl
    constructor
    · intro entry hentry
      rw [hnone] at hentry
      cases hentry
    · intro hbad
      exact absurd hbad (Finset.notMem_empty k)
    · intro entry hentry
      rw [hnone] at hentry
      cases hentry
  · constructor
    · intro k name hbad
      exact absurd hbad (Finset.notMem_empty _)
    · intro k hbad
      exact absurd hbad (Finset.notMem_empty k)

theorem mem_told {k : ℕ} : k ∈ (w.next e).told ↔
    (k ∈ w.told ∨ w.compiler.informs e = some k) ∧ ∃ entry, (w.compiler.step e).entries k = some entry := by
  rw [next, Finset.mem_filter, Finset.mem_union, Option.mem_toFinset, contains_iff]
  rfl

theorem mem_named {p : ℕ × String} : p ∈ (w.next e).named ↔ p ∈ w.named ∨ w.compiler.begins e = some p := by
  rw [next, Finset.mem_union, Option.mem_toFinset]
  rfl

theorem mem_early {k : ℕ} : k ∈ (w.next e).early ↔
    k ∈ w.early ∨ (∃ name, w.compiler.begins e = some (k, name)) ∧ k ∉ w.told := by
  rw [next, Finset.mem_union, Finset.mem_sdiff, Option.mem_toFinset, Option.mem_def, Option.map_eq_some_iff]
  simp

theorem template_next : (w.next e).compiler.demoPathTemplate = w.compiler.demoPathTemplate :=
  (sameConfig_step e).1

theorem Recorded.next (h : Recorded w) (hbegins : ∀ (k : ℕ) (name : String), w.compiler.begins e = some (k, name) →
      k ≠ 0 ∧ name = w.compiler.demoPathTemplate.arg (if k ∈ w.told then k else 0)) :
    Recorded (w.next e) := by
  constructor
  · intro k name hmem
    rw [template_next]
    rcases mem_named.mp hmem with hmem | hnew
    · obtain ⟨hid, hname⟩ := h.named k name hmem
      exact ⟨hid, hname.imp_right fun hzero => ⟨hzero.1, mem_early.mpr (Or.inl hzero.2)⟩⟩
    · obtain ⟨hid, hname⟩ := hbegins k name hnew
      refine ⟨hid, ?_⟩
      by_cases htold : k ∈ w.told
      · rw [if_pos htold] at hname
        exact Or.inl hname
      · rw [if_neg htold] at hname
        exact Or.inr ⟨hname, mem_early.mpr (Or.inr ⟨⟨name, hnew⟩, htold⟩)⟩
  · intro k hmem
    rw [template_next, mem_named]
    rcases mem_early.mp hmem with hmem | ⟨⟨name, hnew⟩, hnot⟩
    · exact Or.inl (h.early k hmem)
    · obtain ⟨-, hname⟩ := hbegins k name hnew
      rw [if_neg hnot] at hname
      rw [← hname]
      exact Or.inr hnew

theorem NotedAt.untouched {k : ℕ} (h : NotedAt w k)
    (hentry : (w.compiler.step e).entries k = w.compiler.entries k)
    (hinforms : w.compiler.informs e ≠ some k) : NotedAt (w.next e) k := by
  have hsame : (w.next e).compiler.entries k = w.compiler.entries k := hentry
  have htold : k ∈ (w.next e).told ↔ k ∈ w.told := by
    rw [mem_told, hentry, or_iff_left hinforms]
    exact and_iff_left_of_imp h.listed
  constructor
  · intro entry hx
    rw [hsame] at hx
    simp only [htold]
    exact h.id entry hx
  · rw [htold, hsame]
    exact h.listed
  · intro entry hx hstarted
    rw [hsame] at hx
    obtain ⟨htemp, hmem⟩ := h.file entry hx hstarted
    exact ⟨htemp, mem_named.mpr (Or.inl hmem)⟩

theorem noted_some {k : ℕ} {entry : Entry} (hentry : (w.compiler.step e).entries k = some entry)
    (hgameId : k ≠ 0 ∧ entry.gameId = if k ∈ (w.next e).told then k else 0)
    (hstarted : entry.started = true →
      entry.tempFileName = entry.finalFileName ++ ".part" ∧ (k, entry.finalFileName) ∈ (w.next e).named) :
    NotedAt (w.next e) k := by
  have hentry : (w.next e).compiler.entries k = some entry := hentry
  constructor
  · intro entry' h
    rw [hentry] at h
    cases h
    exact hgameId
  · intro _
    exact ⟨entry, hentry⟩
  · intro entry' h
    rw [hentry] at h
    cases h
    exact hstarted

theorem NotedAt.made {k : ℕ} (h : NotedAt w k) (hid : k ≠ 0)
    (hentry : (w.compiler.step e).entries k = some ((w.compiler.entries k).getD {}))
    (hinforms : w.compiler.informs e = none) : NotedAt (w.next e) k := by
  cases hold : w.compiler.entries k with
  | some entry => exact h.untouched (by rw [hentry, hold]; rfl) (by rw [hinforms]; simp)
  | none =>
    have hnew : (w.compiler.step e).entries k = some {} := by
      rw [hentry, hold]
      rfl
    have hnot : k ∉ (w.next e).told := by
      rw [mem_told, hinforms]
      intro hx
      obtain ⟨htold | hbad, -⟩ := hx
      · obtain ⟨entry, hentry⟩ := h.listed htold
        rw [hold] at hentry
        cases hentry
      · cases hbad
    apply noted_some hnew
    · rw [if_neg hnot]
      exact ⟨hid, rfl⟩
    · intro hbad
      cases hbad

theorem NotedAt.told {k : ℕ} (h : NotedAt w k) (hid : k ≠ 0)
    (hnew : (w.compiler.step e).entries k = some { (w.compiler.entries k).getD {} with gameId := k })
    (hinforms : w.compiler.informs e = some k) : NotedAt (w.next e) k := by
  have hmem : k ∈ (w.next e).told := mem_told.mpr ⟨Or.inr hinforms, _, hnew⟩
  apply noted_some hnew
  · rw [if_pos hmem]
    exact ⟨hid, rfl⟩
  · cases hentry : w.compiler.entries k with
    | none =>
      intro hbad
      cases hbad
    | some entry =>
      intro hstarted
      obtain ⟨htemp, hnamed⟩ := h.file entry hentry hstarted
      exact ⟨htemp, mem_named.mpr (Or.inl hnamed)⟩

theorem NotedAt.named {k : ℕ} (h : NotedAt w k) {entry : Entry} {started : Bool}
    (hentry : w.compiler.entries k = some entry)
    (hnew : (w.compiler.step e).entries k = some (entry.named w.compiler.demoPathTemplate started))
    (hinforms : w.compiler.informs e = none)
    (hbegins : started = true → w.compiler.begins e = some (k, w.compiler.demoPathTemplate.arg entry.gameId)) :
    NotedAt (w.next e) k := by
  have hsame : k ∈ (w.next e).told ↔ k ∈ w.told := by
    rw [mem_told, hnew, hinforms]
    simp
  apply noted_some hnew
  · simp only [hsame]
    exact h.id entry hentry
  · intro hstarted
    exact ⟨rfl, mem_named.mpr (Or.inr (hbegins hstarted))⟩

theorem NotedAt.closed {k : ℕ} (h : NotedAt w k) : NotedAt (w.next .timerEvent) k := by
  by_cases hclosed : k ∈ expiredGameIds (w.compiler.games.map fun _ => countDown)
  · have hgone : (w.next .timerEvent).compiler.entries k = none :=
      (entries_closeExpiredGames k).trans (if_pos hclosed)
    constructor
    · intro entry hentry
      rw [hgone] at hentry
      cases hentry
    · intro hbad
      exact (mem_told.mp hbad).2
    · intro entry hentry
      rw [hgone] at hentry
      cases hentry
  · exact h.untouched ((entries_closeExpiredGames k).trans (if_neg hclosed)) (by simp [informs])

theorem Tracked.next (h : Tracked w) (he : w.nonzeroIds e) : Tracked (w.next e) := by
  cases change w he with
  | none hsame hops hinforms hbegins =>
    refine ⟨fun k => (h.noted k).untouched (by rw [hsame]) (by rw [hinforms]; simp), h.recorded.next ?_⟩
    rw [hbegins]
    exact fun _ _ hbad => by cases hbad
  | made gameId hid hentries hops hinforms hbegins =>
    refine ⟨fun k => ?_, h.recorded.next (by rw [hbegins]; exact fun _ _ hbad => by cases hbad)⟩
    by_cases hkey : k = gameId
    · subst hkey
      exact (h.noted k).made hid (by rw [hentries, Function.update_self]) hinforms
    · exact (h.noted k).untouched (by rw [hentries, Function.update_of_ne hkey]) (by rw [hinforms]; simp)
  | told gameId hid hentries hops hinforms hbegins =>
    refine ⟨fun k => ?_, h.recorded.next (by rw [hbegins]; exact fun _ _ hbad => by cases hbad)⟩
    by_cases hkey : k = gameId
    · subst hkey
      exact (h.noted k).told hid (by rw [hentries, Function.update_self]) hinforms
    · exact (h.noted k).untouched (by rw [hentries, Function.update_of_ne hkey])
        (by rw [hinforms]; simpa using Ne.symm hkey)
  | named gameId entry started begun hentry hnot hopen hentries hops hinforms hbegins =>
    refine ⟨fun k => ?_, h.recorded.next ?_⟩
    · by_cases hkey : k = gameId
      · subst hkey
        refine (h.noted k).named hentry (by rw [hentries, Function.update_self]) hinforms ?_
        intro hstarted
        rw [hbegins, if_pos (hopen hstarted)]
      · exact (h.noted k).untouched (by rw [hentries, Function.update_of_ne hkey]) (by rw [hinforms]; simp)
    · intro k name hnew
      rw [hbegins] at hnew
      split at hnew
      · cases hnew
        obtain ⟨hid, hgameId⟩ := (h.noted gameId).id entry hentry
        exact ⟨hid, by rw [hgameId]⟩
      · cases hnew
  | closed htimer =>
    subst htimer
    refine ⟨fun k => (h.noted k).closed, h.recorded.next ?_⟩
    intro k name hbad
    cases hbad

/-! ### The files of the entries -/

/-- At most one game began its file before its `GameInfo`. -/
def Undisputed (w : Watched) : Prop := ∀ k ∈ w.early, ∀ k' ∈ w.early, k = k'

/-- Two games share the name of a demo only if both began early. -/
theorem Recorded.shared_name (h : Recorded w) {k k' : ℕ} {name : String} (hk : (k, name) ∈ w.named)
    (hk' : (k', name) ∈ w.named) : k = k' ∨ k ∈ w.early ∧ k' ∈ w.early := by
  have hinj := w.compiler.demoPathTemplate.arg_injective
  obtain ⟨hid, hname | ⟨hname, hearly⟩⟩ := h.named k name hk
  · obtain ⟨hid', hname' | ⟨hname', -⟩⟩ := h.named k' name hk'
    · exact Or.inl (hinj (hname.symm.trans hname'))
    · exact absurd (hinj (hname.symm.trans hname')) hid
  · obtain ⟨hid', hname' | ⟨-, hearly'⟩⟩ := h.named k' name hk'
    · exact absurd (hinj (hname'.symm.trans hname)) hid'
    · exact Or.inr ⟨hearly, hearly'⟩

theorem Recorded.unique (h : Recorded w) (hu : w.Undisputed) {k k' : ℕ} {name : String}
    (hk : (k, name) ∈ w.named) (hk' : (k', name) ∈ w.named) : k = k' := by
  rcases h.shared_name hk hk' with heq | ⟨hearly, hearly'⟩
  · exact heq
  · exact hu k hearly k' hearly'

/-- Every open demo is in the directory. -/
def Present (w : Watched) : Prop :=
  ∀ (k : ℕ) (entry : Entry), w.compiler.entries k = some entry → entry.started = true →
    entry.tempFileName ∈ w.files

theorem present_of_entry {k gameId : ℕ} {entry entry' : Entry} (h : Present w)
    (hentries : (w.compiler.step e).entries = Function.update w.compiler.entries gameId (some entry'))
    (hsub : w.files ⊆ (w.next e).files)
    (hnew : entry'.started = true → entry'.tempFileName ∈ (w.next e).files)
    (hentry : (w.compiler.step e).entries k = some entry) (hstarted : entry.started = true) :
    entry.tempFileName ∈ (w.next e).files := by
  by_cases hkey : k = gameId
  · rw [hentries, hkey, Function.update_self] at hentry
    cases hentry
    exact hnew hstarted
  · rw [hentries, Function.update_of_ne hkey] at hentry
    exact hsub (h k entry hentry hstarted)

/-- The directory is changed by the operations that an event adds. -/
theorem files_append {ops : List FileOp} (hops : (w.compiler.step e).fileOps = w.compiler.fileOps ++ ops) :
    (w.next e).files = ops.foldl FileOp.apply w.files := by
  rw [files, directory]
  show ((w.compiler.step e).fileOps).foldl FileOp.apply w.disk = _
  rw [hops, List.foldl_append]
  rfl

theorem files_same (hops : (w.compiler.step e).fileOps = w.compiler.fileOps) : (w.next e).files = w.files := by
  rw [files, files, directory, directory]
  exact congrArg (List.foldl FileOp.apply w.disk) hops

/-- The file of an entry that was there, or of a new one, which has none. -/
theorem Present.getD (h : Present w) (k : ℕ) (hstarted : ((w.compiler.entries k).getD {}).started = true) :
    ((w.compiler.entries k).getD {}).tempFileName ∈ w.files := by
  cases hentry : w.compiler.entries k with
  | none =>
    rw [hentry] at hstarted
    cases hstarted
  | some entry =>
    rw [hentry] at hstarted
    exact h k entry hentry hstarted

/-- A tick takes only files of games that expire. -/
theorem Present.closed (h : Present w) (ht : Tracked w) (hu : w.Undisputed) {k : ℕ} {entry : Entry}
    (hentry : w.compiler.closeExpiredGames.entries k = some entry) (hstarted : entry.started = true) :
    entry.tempFileName ∈ (w.next .timerEvent).files := by
  rw [entries_closeExpiredGames] at hentry
  split at hentry
  · cases hentry
  · rename_i hlives
    obtain ⟨ops, hops, hmem⟩ := closeExpiredGames_ops w.compiler
    rw [files_append (e := .timerEvent) hops]
    apply mem_foldl_apply (h k entry hentry hstarted)
    intro op hop hbad
    -- the file that is taken is that of a game that expires, and `k` does not
    obtain ⟨k', game, hk', hgame, hopen', htakes⟩ := hmem op hop
    have hentry' : w.compiler.entries k' = some game.entry := by
      rw [entries, hgame]
      rfl
    obtain ⟨htemp, hnamed⟩ := (ht.noted k).file entry hentry hstarted
    obtain ⟨htemp', hnamed'⟩ := (ht.noted k').file game.entry hentry' hopen'
    rw [htakes, Option.some.injEq] at hbad
    have hname : game.entry.finalFileName = entry.finalFileName := by
      apply (String.append_left_inj ".part").mp
      rw [← htemp', ← htemp]
      exact hbad
    rw [hname] at hnamed'
    rw [ht.recorded.unique hu hnamed hnamed'] at hlives
    exact hlives hk'

theorem Present.next (h : Present w) (ht : Tracked w) (hu : w.Undisputed) (he : w.nonzeroIds e) :
    Present (w.next e) := by
  intro k entry hentry hstarted
  cases change w he with
  | none hsame hops hinforms hbegins =>
    rw [files_same hops]
    have hentry : (w.compiler.step e).entries k = some entry := hentry
    rw [hsame] at hentry
    exact h k entry hentry hstarted
  | made gameId hid hentries hops hinforms hbegins =>
    have hfiles := files_same hops
    exact present_of_entry h hentries hfiles.ge (fun hs => hfiles.ge (h.getD gameId hs)) hentry hstarted
  | told gameId hid hentries hops hinforms hbegins =>
    have hfiles := files_same hops
    exact present_of_entry h hentries hfiles.ge (fun hs => hfiles.ge (h.getD gameId hs)) hentry hstarted
  | named gameId entry' started begun hentry' hnot hopen hentries hops hinforms hbegins =>
    have hfiles := files_append hops
    refine present_of_entry h hentries ?_ ?_ hentry hstarted
    · intro name hname
      rw [hfiles]
      apply mem_foldl_apply hname
      intro op hop
      split at hop
      · rw [List.mem_singleton.mp hop]
        exact fun hbad => by cases hbad
      · cases hop
    · intro hs
      rw [hfiles, if_pos (hopen hs)]
      exact Finset.mem_insert_self _ _
  | closed htimer =>
    subst htimer
    exact h.closed ht hu hentry hstarted

end Watched

/-! ### Consistency -/

/-- The entries whose countdown ends with the next tick. -/
def expiring (s : TaDemoCompiler) : List (ℕ × GameContext) :=
  s.games.toList.filter fun entry => entry.2.expiryCountdown - 1 ≤ 0

theorem expiredGameIds_eq (h : ∀ (k : ℕ) (game : GameContext), s.games[k]? = some game → game.gameId = k) :
    expiredGameIds (s.games.map fun _ => countDown) = s.expiring.map (·.1) := by
  rw [expiredGameIds, Std.ExtTreeMap.toList_map, List.filter_map, List.map_map]
  apply List.map_congr_left
  intro entry hentry
  exact h entry.1 entry.2 (Table.mem_toList.mp (List.mem_of_mem_filter hentry))

theorem mem_expiring {k : ℕ} : k ∈ s.expiring.map (·.1) ↔
    ∃ game : GameContext, s.games[k]? = some game ∧ game.expiryCountdown - 1 ≤ 0 := by
  rw [List.mem_map]
  constructor
  · intro h
    obtain ⟨⟨k, game⟩, hentry, rfl⟩ := h
    rw [expiring, List.mem_filter] at hentry
    exact ⟨game, Table.mem_toList.mp hentry.1, of_decide_eq_true hentry.2⟩
  · intro h
    obtain ⟨game, hgame, hend⟩ := h
    refine ⟨(k, game), ?_, rfl⟩
    rw [expiring, List.mem_filter]
    exact ⟨Table.mem_toList.mpr hgame, decide_eq_true hend⟩

theorem closed_of_gameId (h : ∀ (k : ℕ) (game : GameContext), s.games[k]? = some game → game.gameId = k)
    (k : ℕ) : s.closeExpiredGames.games[k]? =
      (s.games[k]?.filter fun game => 0 < game.expiryCountdown - 1).map countDown := by
  rw [closeExpiredGames_games, expiredGameIds_eq h]
  simp only [mem_expiring]
  cases hgame : s.games[k]? with
  | none => simp
  | some game =>
    by_cases hend : game.expiryCountdown - 1 ≤ 0
    · rw [if_pos ⟨game, rfl, hend⟩, Option.filter_some, if_neg (by simpa using hend)]
      rfl
    · rw [if_neg (by rintro ⟨_, ⟨⟩, hbad⟩; exact hend hbad), Option.filter_some, if_pos (by simpa using hend)]

theorem files_of_gameId (h : ∀ (k : ℕ) (game : GameContext), s.games[k]? = some game → game.gameId = k) :
    s.closeExpiredGames.fileOps =
      s.fileOps ++ s.expiring.flatMap fun entry => fileOpOf s.minDemoSize entry.2 := by
  have hnodup : (s.expiring.map (·.1)).Nodup := by
    have hpair : s.expiring.Pairwise fun p q => p.1 < q.1 := s.games.toList_pairwise.filter _
    rw [List.nodup_iff_pairwise_ne, List.pairwise_map]
    exact hpair.imp fun hlt => hlt.ne
  rw [closeExpiredGames, expiredGameIds_eq h, foldl_closeGame_fileOps hnodup, List.flatMap_map]
  congr 1
  apply List.flatMap_congr
  intro entry hentry
  have hgame : s.games[entry.1]? = some entry.2 := Table.mem_toList.mp (List.mem_of_mem_filter hentry)
  have hcount : gameAt (s.games.map fun _ => countDown) entry.1 = countDown entry.2 := by
    rw [gameAt, Std.ExtTreeMap.getElem?_map, hgame]
    rfl
  show fileOpOf s.minDemoSize (gameAt (s.games.map fun _ => countDown) entry.1) = _
  rw [hcount]
  rfl

namespace Watched

/-- A file of the game: the one that a demo of it is, or was, written to. -/
def FileOf (w : Watched) (k : ℕ) (name : String) : Prop :=
  ∃ final, (k, final) ∈ w.named ∧ name = final ++ ".part"

/-- Entries have the id they are found under; no two games have had a demo file of one name; the
next tick removes exactly the entries whose countdown ends, and of the directory exactly their
files, and the demos to be kept have then their final names. -/
structure Consistent (w : Watched) : Prop where
  gameId : ∀ (k : ℕ) (game : GameContext), w.compiler.games[k]? = some game → game.gameId = k
  fileNames : ∀ (k k' : ℕ) (name : String), (k, name) ∈ w.named → (k', name) ∈ w.named → k = k'
  closed : ∀ k : ℕ, (w.next .timerEvent).compiler.games[k]? =
    (w.compiler.games[k]?.filter fun game => 0 < game.expiryCountdown - 1).map countDown
  files : ∀ name, name ∈ (w.next .timerEvent).files ↔
    (name ∈ w.files ∧ ¬ ∃ p ∈ w.compiler.expiring, w.FileOf p.1 name) ∨
      ∃ p ∈ w.compiler.expiring, p.2.Kept w.compiler.minDemoSize ∧ name = p.2.finalFileName

/-- Nothing is in the way of closing the game: of the files of this game only the open one is
there, and the name that a demo to be kept is to have is free. -/
def Clear (w : Watched) (k : ℕ) (game : GameContext) : Prop :=
  (∀ name, w.FileOf k name → name ∈ w.files →
    game.demoCompilation.isSome = true ∧ name = game.tempFileName) ∧
  (game.Kept w.compiler.minDemoSize → game.finalFileName ∉ w.files)

theorem tracked_of_runs {t : PathTemplate} {n : ℕ} {disk : Finset String} {w : Watched}
    (h : Runs Watched.step nonzeroIds (.new t n disk) w) : Tracked w ∧ (w.Undisputed → Present w) := by
  refine Runs.invariant (P := fun w => Tracked w ∧ (w.Undisputed → Present w)) h ⟨tracked_new t n disk, ?_⟩ ?_
  · intro _ k entry hentry
    have hnone : (new t n disk).compiler.entries k = none := rfl
    rw [hnone] at hentry
    cases hentry
  · intro w e w' hw he hx
    cases hx
    refine ⟨hw.1.next he, fun hu => ?_⟩
    have hu' : w.Undisputed := fun k hk k' hk' =>
      hu k (mem_early.mpr (Or.inl hk)) k' (mem_early.mpr (Or.inl hk'))
    exact (hw.2 hu').next hw.1 hu' he

variable {w : Watched} {k k' : ℕ} {game game' : GameContext}

theorem Tracked.at (h : Tracked w) (hgame : w.compiler.games[k]? = some game) :
    game.gameId = (if k ∈ w.told then k else 0) ∧ k ≠ 0 ∧ (game.demoCompilation.isSome = true →
      game.tempFileName = game.finalFileName ++ ".part" ∧ (k, game.finalFileName) ∈ w.named) := by
  have hentry : w.compiler.entries k = some game.entry := by
    rw [entries, hgame]
    rfl
  obtain ⟨hid, hgameId⟩ := (h.noted k).id game.entry hentry
  exact ⟨hgameId, hid, (h.noted k).file game.entry hentry⟩

theorem Tracked.gameId_eq_iff (h : Tracked w) (hgame : w.compiler.games[k]? = some game) :
    game.gameId = k ↔ k ∈ w.told := by
  obtain ⟨hgameId, hid, -⟩ := h.at hgame
  rw [hgameId]
  split
  · rename_i htold
    exact iff_of_true rfl htold
  · rename_i hnot
    exact iff_of_false (Ne.symm hid) hnot

theorem Recorded.part_ne (h : Recorded w) {name name' : String} (hk : (k, name) ∈ w.named)
    (hk' : (k', name') ∈ w.named) : name ++ ".part" ≠ name' := by
  have harg : ∀ {k : ℕ} {name : String}, (k, name) ∈ w.named → ∃ m, name = w.compiler.demoPathTemplate.arg m := by
    intro k name hmem
    rcases (h.named k name hmem).2 with hname | ⟨hname, -⟩
    · exact ⟨k, hname⟩
    · exact ⟨0, hname⟩
  obtain ⟨m, rfl⟩ := harg hk
  obtain ⟨m', rfl⟩ := harg hk'
  exact w.compiler.demoPathTemplate.part_ne_arg m m'

theorem expiring_lookup {s : TaDemoCompiler} {p : ℕ × GameContext} (h : p ∈ s.expiring) :
    s.games[p.1]? = some p.2 := Table.mem_toList.mp (List.mem_of_mem_filter h)

theorem expiring_pairwise (s : TaDemoCompiler) : s.expiring.Pairwise fun p q => p.1 < q.1 :=
  s.games.toList_pairwise.filter _

/-- The games that the next tick closes have files of their own. -/
theorem Tracked.apart (h : Tracked w) (hu : w.Undisputed) (hp : Present w) :
    Apart w.files (w.compiler.expiring.map Prod.snd) := by
  constructor
  · intro game hmem hstarted
    obtain ⟨p, hexp, rfl⟩ := List.mem_map.mp hmem
    have hentry : w.compiler.entries p.1 = some p.2.entry := by
      rw [entries, expiring_lookup hexp]
      rfl
    exact hp p.1 p.2.entry hentry hstarted
  · intro game hmem game' hmem' hstarted hstarted'
    obtain ⟨p, hexp, rfl⟩ := List.mem_map.mp hmem
    obtain ⟨p', hexp', rfl⟩ := List.mem_map.mp hmem'
    obtain ⟨htemp, hnamed⟩ := (h.at (expiring_lookup hexp)).2.2 hstarted
    obtain ⟨-, hnamed'⟩ := (h.at (expiring_lookup hexp')).2.2 hstarted'
    rw [htemp]
    exact h.recorded.part_ne hnamed hnamed'
  · rw [List.pairwise_map]
    refine (expiring_pairwise w.compiler).imp_of_mem ?_
    intro p p' hexp hexp' hlt hstarted hstarted'
    obtain ⟨htemp, hnamed⟩ := (h.at (expiring_lookup hexp)).2.2 hstarted
    obtain ⟨htemp', hnamed'⟩ := (h.at (expiring_lookup hexp')).2.2 hstarted'
    have hfinal : p.2.finalFileName ≠ p'.2.finalFileName := by
      intro hname
      rw [← hname] at hnamed'
      exact hlt.ne (h.recorded.unique hu hnamed hnamed')
    refine ⟨?_, hfinal⟩
    rw [htemp, htemp']
    exact fun hname => hfinal ((String.append_left_inj ".part").mp hname)

/-- The directory after the next tick. -/
theorem Tracked.mem_files_tick (h : Tracked w) (hu : w.Undisputed) (hp : Present w)
    (hid : ∀ (k : ℕ) (game : GameContext), w.compiler.games[k]? = some game → game.gameId = k) (name : String) :
    name ∈ (w.next .timerEvent).files ↔
      (name ∈ w.files ∧ ¬ ∃ p ∈ w.compiler.expiring, p.2.Vacates w.compiler.minDemoSize w.files name) ∨
        ∃ p ∈ w.compiler.expiring, p.2.Kept w.compiler.minDemoSize ∧ name = p.2.finalFileName := by
  have hfiles : (w.next .timerEvent).files =
      ((w.compiler.expiring.map Prod.snd).flatMap (fileOpOf w.compiler.minDemoSize)).foldl FileOp.apply w.files := by
    rw [files_append (e := .timerEvent) (files_of_gameId hid), List.flatMap_map]
  rw [hfiles, mem_closeAll (h.apart hu hp)]
  simp only [List.mem_map, exists_exists_and_eq_and]

/-- A name that closing takes is that of the only file of a game to which nothing is in the way. -/
theorem Tracked.vacates_iff (h : Tracked w) {name : String} (hname : name ∈ w.files)
    (hclear : ∀ p ∈ w.compiler.expiring, w.Clear p.1 p.2) :
    (∃ p ∈ w.compiler.expiring, p.2.Vacates w.compiler.minDemoSize w.files name) ↔
      ∃ p ∈ w.compiler.expiring, w.FileOf p.1 name := by
  refine exists_congr fun p => and_congr_right fun hexp => ?_
  obtain ⟨honly, hfree⟩ := hclear p hexp
  constructor
  · intro hv
    obtain ⟨hstarted, htemp, -⟩ := hv
    obtain ⟨hpart, hnamed⟩ := (h.at (expiring_lookup hexp)).2.2 hstarted
    exact ⟨p.2.finalFileName, hnamed, htemp.trans hpart⟩
  · intro hfile
    obtain ⟨hstarted, htemp⟩ := honly name hfile hname
    exact ⟨hstarted, htemp, fun hbad => hfree hbad.1 hbad.2⟩

/-- Where closing leaves what it should, nothing was in the way. -/
theorem Consistent.clear (hc : Consistent w) (h : Tracked w) (hu : w.Undisputed) (hp : Present w)
    {p : ℕ × GameContext} (hexp : p ∈ w.compiler.expiring) : w.Clear p.1 p.2 := by
  have htick := h.mem_files_tick hu hp hc.gameId
  -- no file of a game is the finished demo of another
  have hunfinished : ∀ {name : String}, w.FileOf p.1 name →
      ¬ ∃ q ∈ w.compiler.expiring, q.2.Kept w.compiler.minDemoSize ∧ name = q.2.finalFileName := by
    intro name hfile hx
    obtain ⟨final, hnamed, hpart⟩ := hfile
    obtain ⟨q, hq, hkept, hname⟩ := hx
    obtain ⟨-, hnamed'⟩ := (h.at (expiring_lookup hq)).2.2 hkept.started
    exact h.recorded.part_ne hnamed hnamed' (hpart.symm.trans hname)
  have hgone : ∀ {name : String}, w.FileOf p.1 name → name ∉ (w.next .timerEvent).files := by
    intro name hfile hbad
    rcases (hc.files name).mp hbad with ⟨-, hnot⟩ | hfinal
    · exact hnot ⟨p, hexp, hfile⟩
    · exact hunfinished hfile hfinal
  have htaken : ∀ {name : String}, w.FileOf p.1 name → name ∈ w.files →
      p.2.Vacates w.compiler.minDemoSize w.files name := by
    intro name hfile hname
    by_contra hnot
    refine hgone hfile ((htick name).mpr (Or.inl ⟨hname, ?_⟩))
    intro hx
    obtain ⟨q, hq, hv⟩ := hx
    obtain ⟨final, hnamed, hpart⟩ := hfile
    obtain ⟨htemp, hnamed'⟩ := (h.at (expiring_lookup hq)).2.2 hv.1
    have hfinal : final = q.2.finalFileName :=
      (String.append_left_inj ".part").mp (hpart.symm.trans (hv.2.1.trans htemp))
    rw [hfinal] at hnamed
    have hkey : p.1 = q.1 := hc.fileNames p.1 q.1 _ hnamed hnamed'
    have hgame := expiring_lookup hexp
    rw [hkey, expiring_lookup hq, Option.some.injEq] at hgame
    rw [hgame] at hv
    exact hnot hv
  constructor
  · intro name hfile hname
    exact ⟨(htaken hfile hname).1, (htaken hfile hname).2.1⟩
  · intro hkept hbad
    obtain ⟨htemp, hnamed⟩ := (h.at (expiring_lookup hexp)).2.2 hkept.started
    have hentry : w.compiler.entries p.1 = some p.2.entry := by
      rw [entries, expiring_lookup hexp]
      rfl
    have hthere : p.2.tempFileName ∈ w.files := hp p.1 p.2.entry hentry hkept.started
    exact (htaken ⟨_, hnamed, htemp⟩ hthere).2.2 ⟨hkept, hbad⟩

/-- The table and the demo files are consistent as long as every game in the table has had its
`GameInfo`, at most one game of the run began its file before that, and nothing is in the way of
the games that the next tick closes. -/
theorem consistent_iff {t : PathTemplate} {n : ℕ} {disk : Finset String}
    (h : Runs Watched.step nonzeroIds (.new t n disk) w) :
    Consistent w ↔ (∀ k, w.compiler.games.contains k = true → k ∈ w.told) ∧ w.Undisputed ∧
      ∀ p ∈ w.compiler.expiring, w.Clear p.1 p.2 := by
  obtain ⟨ht, hpresent⟩ := tracked_of_runs h
  constructor
  · intro hc
    have hu : w.Undisputed := by
      intro k hk k' hk'
      exact hc.fileNames k k' _ (ht.recorded.early k hk) (ht.recorded.early k' hk')
    refine ⟨?_, hu, fun p hexp => hc.clear ht hu (hpresent hu) hexp⟩
    intro k hk
    rw [Std.ExtTreeMap.contains_eq_isSome_getElem?, Option.isSome_iff_exists] at hk
    obtain ⟨game, hgame⟩ := hk
    exact (ht.gameId_eq_iff hgame).mp (hc.gameId k game hgame)
  · intro hx
    obtain ⟨htold, hu, hclear⟩ := hx
    have hid : ∀ (k : ℕ) (game : GameContext), w.compiler.games[k]? = some game → game.gameId = k := by
      intro k game hgame
      exact (ht.gameId_eq_iff hgame).mpr (htold k (Table.contains_of_getElem? hgame))
    refine ⟨hid, fun k k' name hk hk' => ht.recorded.unique hu hk hk', closed_of_gameId hid, ?_⟩
    intro name
    rw [ht.mem_files_tick hu (hpresent hu) hid]
    refine or_congr (and_congr_right fun hname => not_congr ?_) Iff.rfl
    exact ht.vacates_iff hname hclear

/-! ### Quiet ticks -/

def lowered (n : ℕ) (game : GameContext) : GameContext :=
  { game with expiryCountdown := game.expiryCountdown - n }

theorem closeExpiredGames_quiet {s : TaDemoCompiler}
    (h : ∀ (k : ℕ) (game : GameContext), s.games[k]? = some game → 1 < game.expiryCountdown) :
    s.closeExpiredGames = { s with games := s.games.map fun _ => countDown } := by
  have hnone : expiredGameIds (s.games.map fun _ => countDown) = [] := by
    rw [expiredGameIds, Std.ExtTreeMap.toList_map, List.filter_map, List.map_map, List.map_eq_nil_iff,
      List.filter_eq_nil_iff]
    intro p hp
    have hlong := h p.1 p.2 (Table.mem_toList.mp hp)
    simp only [Function.comp_apply, countDown, decide_eq_true_eq]
    omega
  rw [closeExpiredGames, hnone]
  rfl

/-- As long as no countdown ends, ticks only lower the countdowns. -/
theorem run_ticks (n : ℕ) {w : Watched} (htold : ∀ k ∈ w.told, w.compiler.games.contains k = true)
    (h : ∀ (k : ℕ) (game : GameContext), w.compiler.games[k]? = some game → n < game.expiryCountdown) :
    ∃ w', run Watched.step w (List.replicate n .timerEvent) = some w' ∧ w'.told = w.told ∧
      w'.early = w.early ∧ w'.files = w.files ∧
      ∀ k : ℕ, w'.compiler.games[k]? = w.compiler.games[k]?.map (lowered n) := by
  induction n generalizing w with
  | zero =>
    refine ⟨w, rfl, rfl, rfl, rfl, fun k => ?_⟩
    have hid : lowered 0 = id := by
      funext game
      simp [lowered]
    rw [hid, Option.map_id_fun, id]
  | succ n ih =>
    have hquiet : (w.next .timerEvent).compiler =
        { w.compiler with games := w.compiler.games.map fun _ => countDown } :=
      closeExpiredGames_quiet fun k game hgame => by
        have := h k game hgame
        push_cast at this
        omega
    have hlookup : ∀ k : ℕ, (w.next .timerEvent).compiler.games[k]? = w.compiler.games[k]?.map countDown := by
      intro k
      rw [hquiet]
      exact Std.ExtTreeMap.getElem?_map (f := fun _ => countDown)
    have hkeys : ∀ k, (w.next .timerEvent).compiler.games.contains k = w.compiler.games.contains k := by
      intro k
      rw [Std.ExtTreeMap.contains_eq_isSome_getElem?, hlookup, Option.isSome_map,
        Std.ExtTreeMap.contains_eq_isSome_getElem?]
    have htold' : (w.next .timerEvent).told = w.told := by
      ext k
      rw [mem_told, ← contains_iff]
      constructor
      · intro hx
        exact hx.1.resolve_right (by simp [informs])
      · intro hk
        exact ⟨Or.inl hk, (hkeys k).trans (htold k hk)⟩
    have hearly : (w.next .timerEvent).early = w.early := by
      ext k
      rw [mem_early]
      simp [begins]
    have hfiles : (w.next .timerEvent).files = w.files := by
      apply files_same
      have hops := congrArg TaDemoCompiler.fileOps hquiet
      exact hops
    obtain ⟨w', hrun, h1, h2, h3, h4⟩ := ih (w := w.next .timerEvent)
      (fun k hk => by rw [hkeys]; exact htold k (htold' ▸ hk))
      (fun k game hgame => by
        rw [hlookup] at hgame
        obtain ⟨old, hold, rfl⟩ := Option.map_eq_some_iff.mp hgame
        have := h k old hold
        push_cast at this
        rw [countDown]
        dsimp only
        omega)
    refine ⟨w', hrun, h1.trans htold', h2.trans hearly, h3.trans hfiles, fun k => ?_⟩
    rw [h4, hlookup, Option.map_map]
    congr 1
    funext game
    simp only [Function.comp_apply, lowered, countDown]
    push_cast
    congr 1
    omega

/-! ### A run, and one in which two games are not told apart -/

/-- A game of one player that is introduced, described and started. -/
def described : List Event :=
  [.newConnection localhost, .readyRead 0 (.hello 5 1 []) noon, .readyRead 0 (.gameInfo {}) noon,
    .readyRead 0 (.gamePlayer armPlayer) noon, .readyRead 0 (.gamePlayerLoading [1]) noon]

/-- The game is not heard of again and is to be closed by the next tick. -/
theorem consistent_described : ∃ w, Runs Watched.step nonzeroIds (.new ⟨"taf-game-", ".tad"⟩ 0 ∅) w ∧
    5 ∈ w.compiler.expiring.map Prod.fst ∧ w.files = {"taf-game-5.tad.part"} ∧ Consistent w := by
  have hrun : (run Watched.step (.new ⟨"taf-game-", ".tad"⟩ 0 ∅) described).any (fun v =>
      v.compiler.games.keys = [5] ∧
        v.compiler.entries 5 = some ⟨5, true, "taf-game-5.tad.part", "taf-game-5.tad"⟩ ∧
        v.compiler.games[5]?.map GameContext.expiryCountdown = some 3600 ∧
        v.told = {5} ∧ v.early = ∅ ∧ v.files = {"taf-game-5.tad.part"}) = true := by
    decide +kernel
  obtain ⟨v, hv, hview⟩ := Option.any_eq_true _ _ |>.mp hrun
  simp only [decide_eq_true_eq] at hview
  obtain ⟨hkeys, hentry, hcount, htold, hearly, hfiles⟩ := hview
  obtain ⟨game, hgame, hentry⟩ := Option.map_eq_some_iff.mp hentry
  rw [hgame, Option.map_some, Option.some.injEq] at hcount
  have honly : ∀ (k : ℕ) (g : GameContext), v.compiler.games[k]? = some g → k = 5 ∧ g = game := by
    intro k g hg
    have hk : k ∈ v.compiler.games.keys := Table.mem_keys.mpr ⟨g, hg⟩
    rw [hkeys, List.mem_singleton] at hk
    subst hk
    rw [hgame] at hg
    exact ⟨rfl, (Option.some.inj hg).symm⟩
  obtain ⟨n, hn⟩ : ∃ n : ℕ, (n : ℤ) = 3599 := ⟨3599, rfl⟩
  obtain ⟨w, hw, htold', hearly', hfiles', hgames⟩ := run_ticks n (w := v)
    (fun k hk => by
      rw [htold, Finset.mem_singleton] at hk
      rw [hk]
      exact Table.contains_of_getElem? hgame)
    (fun k g hg => by rw [(honly k g hg).2, hcount, hn]; norm_num)
  have hlast : ∀ (k : ℕ) (g : GameContext), w.compiler.games[k]? = some g → k = 5 ∧ g = lowered n game := by
    intro k g hg
    rw [hgames] at hg
    obtain ⟨old, hold, rfl⟩ := Option.map_eq_some_iff.mp hg
    exact ⟨(honly k old hold).1, by rw [(honly k old hold).2]⟩
  have hruns : Runs Watched.step nonzeroIds (.new ⟨"taf-game-", ".tad"⟩ 0 ∅) w := by
    apply Runs.of_run (described ++ List.replicate n .timerEvent)
    · rw [run_append, hv]
      exact hw
    · intro t e he
      simp only [described, List.cons_append, List.nil_append, List.mem_cons, List.mem_replicate] at he
      rcases he with rfl | rfl | rfl | rfl | rfl | ⟨-, rfl⟩ <;> simp [nonzeroIds]
  have hexpiring : 5 ∈ w.compiler.expiring.map Prod.fst := by
    refine mem_expiring.mpr ⟨lowered n game, by rw [hgames, hgame]; rfl, ?_⟩
    rw [lowered]
    dsimp only
    omega
  refine ⟨w, hruns, hexpiring, hfiles'.trans hfiles, (consistent_iff hruns).mpr ⟨?_, ?_, ?_⟩⟩
  · intro k hk
    rw [Std.ExtTreeMap.contains_eq_isSome_getElem?, Option.isSome_iff_exists] at hk
    obtain ⟨g, hg⟩ := hk
    rw [htold', htold, Finset.mem_singleton]
    exact (hlast k g hg).1
  · unfold Undisputed
    rw [hearly', hearly]
    intro k hk
    exact absurd hk (Finset.notMem_empty k)
  · intro p hp
    obtain ⟨-, hp2⟩ := hlast p.1 p.2 (expiring_lookup hp)
    have hstarted : p.2.demoCompilation.isSome = true := by
      rw [hp2]
      exact congrArg Entry.started hentry
    have htemp : p.2.tempFileName = "taf-game-5.tad.part" := by
      rw [hp2]
      exact congrArg Entry.tempFileName hentry
    have hfinal : p.2.finalFileName = "taf-game-5.tad" := by
      rw [hp2]
      exact congrArg Entry.finalFileName hentry
    constructor
    · intro name hfile hname
      rw [hfiles', hfiles, Finset.mem_singleton] at hname
      exact ⟨hstarted, hname.trans htemp.symm⟩
    · intro _
      rw [hfinal, hfiles', hfiles]
      decide

/-- Two games whose players load before anyone has described them. -/
def undescribed : List Event :=
  [.newConnection localhost, .readyRead 0 (.hello 5 1 []) noon, .readyRead 0 (.gamePlayer armPlayer) noon,
    .newConnection localhost, .readyRead 1 (.hello 6 2 []) noon, .readyRead 1 (.gamePlayer armPlayer) noon,
    .readyRead 0 (.gamePlayerLoading [1]) noon, .readyRead 1 (.gamePlayerLoading [2]) noon]

theorem undescribed_games_share_file :
    ∃ w, Runs Watched.step nonzeroIds (.new ⟨"taf-game-", ".tad"⟩ 0 ∅) w ∧
      w.compiler.entries 5 = some ⟨0, true, "taf-game-0.tad.part", "taf-game-0.tad"⟩ ∧
      w.compiler.entries 6 = some ⟨0, true, "taf-game-0.tad.part", "taf-game-0.tad"⟩ ∧
      ¬ Consistent w := by
  have hrun : (run Watched.step (.new ⟨"taf-game-", ".tad"⟩ 0 ∅) undescribed).map (fun w =>
      (w.compiler.entries 5, w.compiler.entries 6)) =
      some (some ⟨0, true, "taf-game-0.tad.part", "taf-game-0.tad"⟩,
        some ⟨0, true, "taf-game-0.tad.part", "taf-game-0.tad"⟩) := by
    decide +kernel
  obtain ⟨w, hw, hview⟩ := Option.map_eq_some_iff.mp hrun
  obtain ⟨h5, h6⟩ := Prod.mk.inj hview
  refine ⟨w, ?_, h5, h6, ?_⟩
  · apply Runs.of_run undescribed hw
    intro t e he
    simp only [undescribed, List.mem_cons, List.not_mem_nil, or_false] at he
    rcases he with rfl | rfl | rfl | rfl | rfl | rfl | rfl | rfl <;> simp [nonzeroIds]
  · intro hc
    obtain ⟨game, hgame, hentry⟩ := Option.map_eq_some_iff.mp h5
    have hzero : game.gameId = 0 := congrArg Entry.gameId hentry
    have hfive := hc.gameId 5 game hgame
    omega

end Watched

end Gpgnet4TA.Tareplay.TaDemoCompiler
