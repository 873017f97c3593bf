import Gpgnet4TA.Taflib.Crc32
import Gpgnet4TA.Talaunch.LaunchServer

/-!
# The game launcher (`GpgNetGameLauncher.cpp`)

The launcher starts the game when it has been told both to start it and whether to host or to
join, and reports to GPGNet how far the game has got. `autolaunch` is the command line option by
which hosting or joining is itself a reason to start (`gpgnet4ta.cpp:739-746`).
-/

namespace Gpgnet4TA.App
open Gpgnet4TA.Lib Gpgnet4TA.Taflib Gpgnet4TA.Talaunch

/-- What one attempt to start the game finds: the text of the ini template, whether the ini can be
written and `online.dll` is there, the game's files (that exist, and their bytes if they can be
read), and the launch server. -/
structure Attempt where
  template : Option QString
  iniOpens : Bool
  dllExists : Bool
  files : QString → Option (Option Bytes)
  failGameFileVersions : Wait
  startApplication : Wait

/-- The members that never change, the permitted CRCs of the files among them. -/
structure Settings where
  iniTarget : QString
  gamePath : QString
  guid : QString
  playerLimit : ℤ
  lockOptions : Bool
  maxUnits : ℤ
  gameFileVersions : List (QString × List ℤ)
  autolaunch : Bool

structure GpgNetGameLauncher extends Settings where
  launchClient : LaunchClient
  thisPlayerName : QString
  mapName : QString
  thisPlayerId : ℤ
  pollStillActiveTimer : Bool
  autoStart : Bool
  readyToStart : Bool
  alreadyStarted : Bool
  alreadyLaunched : Bool
  isHost : Bool
  randomPositions : Bool
  quitCount : ℕ
  quitCountResetTimer : Bool
  enableGameFileVersionVerify : Bool

namespace GpgNetGameLauncher

inductive Value where
  | text (value : QString)
  | int (value : ℤ)
  deriving DecidableEq

/-- What is sent to GPGNet, the transfers of the launch client, files, signals. -/
inductive Output where
  | sendGameState (state substate : String)
  | sendPlayerOption (playerId key : QString) (value : ℤ)
  | sendGameOption (key : String) (value : Value)
  | sendGameEnded
  | launchClient (transfer : Transfer)
  | writeFile (name text : QString)
  | copyFile (target : QString)
  | applicationStarted
  | applicationTerminated
  | quit
  deriving DecidableEq

/-- A launcher as constructed and set up; the player's id is not initialised. -/
def new (settings : Settings) (launchClient : LaunchClient) (thisPlayerId : ℤ) (verify : Bool) : GpgNetGameLauncher where
  toSettings := settings
  launchClient := launchClient
  thisPlayerName := []
  mapName := []
  thisPlayerId := thisPlayerId
  pollStillActiveTimer := false
  autoStart := false
  readyToStart := false
  alreadyStarted := false
  alreadyLaunched := false
  isHost := false
  randomPositions := true
  quitCount := 0
  quitCountResetTimer := false
  enableGameFileVersionVerify := verify

/-! ### Starting -/

/-- `QString::replace`: `skip` characters belong to what has just been replaced. -/
def replace (before after : QString) : ℕ → QString → QString
  | _, [] => []
  | 0, c :: cs =>
    if before.isPrefixOf (c :: cs) then after ++ replace before after (before.length - 1) cs
    else c :: replace before after 0 cs
  | skip + 1, _ :: cs => replace before after skip cs

def number (n : ℤ) : QString := (toString n).toList

def createTAInitFile (template : Option QString) (iniOpens : Bool) (iniFilename session mission : QString)
    (playerLimit : ℤ) (lockOptions : Bool) (maxUnits : ℤ) (randomPositions : Bool) : List Output :=
  match template with
  | none => []
  | some txt =>
    let txt := replace "{session}".toList session 0 txt
    let txt := replace "{mission}".toList mission 0 txt
    let txt := replace "{playerlimit}".toList (number (max 2 (min playerLimit 10))) 0 txt
    let txt := replace "{maxunits}".toList (number (max 20 (min maxUnits 1500))) 0 txt
    let txt := replace "{lockoptions}".toList (if lockOptions then ['1'] else ['0']) 0 txt
    let txt := replace "{location}".toList (if randomPositions then ['2'] else ['1']) 0 txt
    if iniOpens then [.writeFile iniFilename txt] else []

def copyOnlineDll (target : QString) (dllExists : Bool) : List Output := if dllExists then [] else [.copyFile target]

/-- The loop that reads a file in pieces of 4096 bytes. -/
def fileCrc32Loop : ℕ → UInt32 → Bytes → UInt32
  | 0, crc, _ => crc
  | fuel + 1, crc, rest =>
    if rest = [] then crc else fileCrc32Loop fuel (CRC32.partialCRC crc (rest.take 4096)) (rest.drop 4096)

def fileCrc32 (content : Bytes) : UInt32 := fileCrc32Loop content.length 0xffffffff content ^^^ 0xffffffff

def mismatch (crc : UInt32) : QString :=
  " (crc=".toList ++ Nat.toDigits 16 crc.toNat ++ (") fails version verification.  It is not whitelisted for " ++
    "competitive play.  Please revert to an official version, or play an unranked game instead.").toList

def verifyLoop (gamePath : QString) (a : Attempt) (c : LaunchClient) :
    List (QString × List ℤ) → Bool × LaunchClient × List Transfer
  | [] => (true, c, [])
  | (filename, crcs) :: versions =>
    let fileName := gamePath ++ '/' :: filename
    match a.files fileName with
    | none => verifyLoop gamePath a c versions
    | some file =>
      if crcs = [] then verifyLoop gamePath a c versions
      else match file with
        | none => (false, c.failGameFileVersions fileName "unable to open for reading".toList a.failGameFileVersions)
        | some content =>
          if ((fileCrc32 content).toNat : ℤ) ∈ crcs then verifyLoop gamePath a c versions
          else (false, c.failGameFileVersions fileName (mismatch (fileCrc32 content)) a.failGameFileVersions)

def verifyGameFileVersions (s : GpgNetGameLauncher) (a : Attempt) : Bool × LaunchClient × List Transfer :=
  verifyLoop s.gamePath a s.launchClient s.gameFileVersions

/-- The part of `onStartApplication` behind the verification. -/
def launch (s : GpgNetGameLauncher) (a : Attempt) : GpgNetGameLauncher × List Output :=
  let (launchClient, transfers) := s.launchClient.startApplication a.startApplication
  let s := { s with alreadyLaunched := false, launchClient := launchClient }
  if isApplicationRunning launchClient.state then
    ({ s with alreadyStarted := true, pollStillActiveTimer := true },
      transfers.map .launchClient ++ [.sendGameState "Lobby" "Battleroom", .applicationStarted])
  else (s, transfers.map .launchClient)

def onStartApplication (s : GpgNetGameLauncher) (a : Attempt) : GpgNetGameLauncher × List Output :=
  if s.alreadyStarted then (s, [])
  else if !s.readyToStart then ({ s with autoStart := true }, [])
  else
    let files := createTAInitFile a.template a.iniOpens s.iniTarget (s.thisPlayerName ++ "'s Game".toList) s.mapName
        s.playerLimit s.lockOptions s.maxUnits s.randomPositions ++
      copyOnlineDll (s.gamePath ++ "/online.dll".toList) a.dllExists
    if s.enableGameFileVersionVerify then
      let (verified, launchClient, transfers) := s.verifyGameFileVersions a
      let s := { s with launchClient := launchClient }
      if verified then
        let (s, outputs) := s.launch a
        (s, files ++ transfers.map .launchClient ++ outputs)
      else (s, files ++ transfers.map .launchClient)
    else
      let (s, outputs) := s.launch a
      (s, files ++ outputs)

/-! ### Handlers -/

def onCreateLobby (s : GpgNetGameLauncher) (playerName : QString) (playerId : ℤ) : GpgNetGameLauncher × List Output :=
  ({ s with
      thisPlayerName := playerName
      thisPlayerId := playerId
      launchClient := { s.launchClient with playerName := playerName } },
    [.sendGameState "Lobby" "Staging"])

def pollJdplayStillActive (s : GpgNetGameLauncher) : GpgNetGameLauncher × List Output :=
  if !isApplicationRunning s.launchClient.state then
    ({ s with pollStillActiveTimer := false }, [.sendGameEnded, .applicationTerminated])
  else if s.isHost && !s.alreadyLaunched && isGameLaunched s.launchClient.state then
    ({ s with alreadyLaunched := true }, [.sendGameState "Launching" "Launching"])
  else (s, [])

/-- The first half of `onHostGame`. -/
def setUpHost (s : GpgNetGameLauncher) (mapName : QString) : GpgNetGameLauncher :=
  { s with
    mapName := mapName
    launchClient := { s.launchClient with gameGuid := s.guid, gameAddress := "127.0.0.1".toList, isHost := true }
    readyToStart := true }

/-- The first half of `onJoinGame`. -/
def setUpJoin (s : GpgNetGameLauncher) : GpgNetGameLauncher :=
  { s with
    launchClient := { s.launchClient with gameGuid := s.guid, gameAddress := "127.0.0.1".toList, isHost := false }
    readyToStart := true }

def deferredStart (s : GpgNetGameLauncher) (a : Attempt) : GpgNetGameLauncher × List Output :=
  if s.autoStart then s.onStartApplication a else (s, [])

def onHostGame (s : GpgNetGameLauncher) (mapName mapDetails : QString) (a : Attempt) :
    GpgNetGameLauncher × List Output :=
  let (s, outputs) := (s.setUpHost mapName).deferredStart a
  ({ s with isHost := true }, outputs ++
    [.sendPlayerOption (number s.thisPlayerId) "Team".toList 1, .sendGameOption "Slots" (.int s.playerLimit),
      .sendGameOption "MapDetails" (.text mapDetails)])

/-- What is joined is only logged. -/
def onJoinGame (s : GpgNetGameLauncher) (a : Attempt) : GpgNetGameLauncher × List Output :=
  let (s, outputs) := s.setUpJoin.deferredStart a
  (s, outputs ++ [.sendPlayerOption (number s.thisPlayerId) "Team".toList 1])

/-- A game option that the host sets before the start. -/
def hostOption (s : GpgNetGameLauncher) (key : String) (value : QString) : List Output :=
  if !s.isHost then [] else if s.alreadyStarted then [] else [.sendGameOption key (.text value)]

def onMapMessage (s : GpgNetGameLauncher) (mapDetails : QString) : GpgNetGameLauncher × List Output :=
  if !s.isHost then (s, [])
  else if s.alreadyStarted then (s, [])
  else ({ s with mapName := mapDetails.takeWhile (· ≠ Char.ofNat 0x1f) }, s.hostOption "MapDetails" mapDetails)

def onQuitMessage (s : GpgNetGameLauncher) : GpgNetGameLauncher × List Output :=
  if !isApplicationRunning s.launchClient.state then (s, [.quit])
  else
    let s := { s with quitCount := s.quitCount + 1 }
    if s.quitCount = 2 then (s, [.quit]) else ({ s with quitCountResetTimer := true }, [])

def onExtendedMessage (s : GpgNetGameLauncher) (msg : QString) (a : Attempt) : GpgNetGameLauncher × List Output :=
  if "/launch".toList.isPrefixOf msg then
    let s := if "/launch".toList.isSuffixOf msg then s else { s with randomPositions := false }
    s.onStartApplication a
  else if "/map ".toList.isPrefixOf msg ∧ 5 < msg.length then s.onMapMessage (msg.drop 5)
  else if "/enable_game_file_version_verify".toList.isPrefixOf msg then
    ({ s with enableGameFileVersionVerify := true }, [])
  else if "/disable_game_file_version_verify".toList.isPrefixOf msg then
    ({ s with enableGameFileVersionVerify := false }, [])
  else if "/rating_type ".toList.isPrefixOf msg ∧ 13 < msg.length then (s, s.hostOption "RatingType" (msg.drop 13))
  else if "/replay_delay_seconds ".toList.isPrefixOf msg ∧ 22 < msg.length then
    (s, s.hostOption "ReplayDelaySeconds" (msg.drop 22))
  else if "/title ".toList.isPrefixOf msg ∧ 6 < msg.length then (s, s.hostOption "Title" (msg.drop 6))
  else if msg = "/quit".toList then s.onQuitMessage
  else (s, [])

/-- The lambda connected to `hostGame`. -/
def hostGame (s : GpgNetGameLauncher) (mapName mapDetails : QString) (a a' : Attempt) :
    GpgNetGameLauncher × List Output :=
  let (s, outputs) := s.onHostGame mapName mapDetails a
  if s.autolaunch then
    let (s, outputs') := s.onStartApplication a'
    (s, outputs ++ outputs')
  else (s, outputs)

/-- The lambda connected to `joinGame`. -/
def joinGame (s : GpgNetGameLauncher) (a a' : Attempt) : GpgNetGameLauncher × List Output :=
  let (s, outputs) := s.onJoinGame a
  if s.autolaunch then
    let (s, outputs') := s.onStartApplication a'
    (s, outputs ++ outputs')
  else (s, outputs)

/-! ### Runs -/

inductive Event where
  | createLobby (playerName : QString) (playerId : ℤ)
  | hostGame (mapName mapDetails : QString) (a a' : Attempt)
  | joinGame (a a' : Attempt)
  | extendedMessage (msg : QString) (a : Attempt)
  | pollJdplayStillActive
  | resetQuitCount
  | readyReadTcp (data : Bytes)
  | unconnected

/-- A timer that does not run has no events. -/
def step (s : GpgNetGameLauncher) : Event → Option (GpgNetGameLauncher × List Output)
  | .createLobby playerName playerId => some (s.onCreateLobby playerName playerId)
  | .hostGame mapName mapDetails a a' => some (s.hostGame mapName mapDetails a a')
  | .joinGame a a' => some (s.joinGame a a')
  | .extendedMessage msg a => some (s.onExtendedMessage msg a)
  | .pollJdplayStillActive => if s.pollStillActiveTimer then some s.pollJdplayStillActive else none
  | .resetQuitCount =>
    if s.quitCountResetTimer then some ({ s with quitCount := 0, quitCountResetTimer := false }, []) else none
  | .readyReadTcp data =>
    some ({ s with launchClient := { s.launchClient with state := onReadyReadTcp s.launchClient.state data } },
      [.launchClient (.readAll data)])
  | .unconnected => some ({ s with launchClient := { s.launchClient with state := .CONNECTING } }, [])

theorem fileCrc32Loop_eq {fuel : ℕ} (crc : UInt32) {rest : Bytes} (h : rest.length ≤ fuel) :
    fileCrc32Loop fuel crc rest = CRC32.partialCRC crc rest := by
  induction fuel generalizing crc rest with
  | zero =>
    have hnil : rest = [] := List.length_eq_zero_iff.mp (by omega)
    rw [hnil]
    rfl
  | succ fuel ih =>
    rw [fileCrc32Loop]
    split
    · rename_i hnil
      rw [hnil]
      rfl
    · rename_i hne
      have hpos : 0 < rest.length := List.length_pos_iff.mpr hne
      have hrest : (rest.drop 4096).length ≤ fuel := by
        rw [List.length_drop]
        omega
      rw [ih _ hrest, CRC32.partialCRC, CRC32.partialCRC, ← List.foldl_append, List.take_append_drop]
      rfl

/-- The pieces do not show in the CRC of a file. -/
theorem fileCrc32_eq (content : Bytes) : fileCrc32 content = CRC32.fullCRC content := by
  rw [fileCrc32, fileCrc32Loop_eq _ (le_refl _)]
  rfl

/-! ### What a start does -/

/-- Neither a report nor a signal. -/
def Output.isAside : Output → Bool
  | .launchClient _ => true
  | .writeFile _ _ => true
  | .copyFile _ => true
  | _ => false

theorem aside_transfers {transfers : List Transfer} : ∀ o ∈ transfers.map Output.launchClient, o.isAside = true := by
  intro o ho
  obtain ⟨transfer, -, rfl⟩ := List.mem_map.mp ho
  rfl

theorem aside_files (s : GpgNetGameLauncher) (a : Attempt) (session : QString) (target : QString) :
    ∀ o ∈ createTAInitFile a.template a.iniOpens s.iniTarget session s.mapName s.playerLimit s.lockOptions s.maxUnits
      s.randomPositions ++ copyOnlineDll target a.dllExists, o.isAside = true := by
  intro o ho
  rcases List.mem_append.mp ho with ho | ho
  · cases htxt : a.template with
    | none => simp [createTAInitFile, htxt] at ho
    | some txt =>
      simp only [createTAInitFile, htxt] at ho
      split at ho
      · rw [List.mem_singleton.mp ho]
        rfl
      · cases ho
  · simp only [copyOnlineDll] at ho
    split at ho
    · cases ho
    · rw [List.mem_singleton.mp ho]
      rfl

/-- How a start ends: it is ignored, deferred, given up, or the game runs. -/
inductive Started (s : GpgNetGameLauncher) : GpgNetGameLauncher → List Output → Prop
  | ignored (h : s.alreadyStarted = true) : Started s s []
  | deferred (h : s.alreadyStarted = false) (hr : s.readyToStart = false) : Started s { s with autoStart := true } []
  | failed (launchClient : LaunchClient) (alreadyLaunched : Bool) (outputs : List Output)
    (h : s.alreadyStarted = false) (hr : s.readyToStart = true) (hl : alreadyLaunched = true → s.alreadyLaunched = true)
    (ho : ∀ o ∈ outputs, o.isAside = true) :
    Started s { s with launchClient := launchClient, alreadyLaunched := alreadyLaunched } outputs
  | started (launchClient : LaunchClient) (outputs : List Output)
    (h : s.alreadyStarted = false) (hr : s.readyToStart = true) (hc : isApplicationRunning launchClient.state = true)
    (ho : ∀ o ∈ outputs, o.isAside = true) :
    Started s { s with
        launchClient := launchClient
        alreadyLaunched := false
        alreadyStarted := true
        pollStillActiveTimer := true }
      (outputs ++ [.sendGameState "Lobby" "Battleroom", .applicationStarted])

theorem started_launch (s : GpgNetGameLauncher) (c : LaunchClient) (a : Attempt) (h : s.alreadyStarted = false)
    (hr : s.readyToStart = true) {before : List Output} (hb : ∀ o ∈ before, o.isAside = true) :
    Started s (launch { s with launchClient := c } a).1 (before ++ (launch { s with launchClient := c } a).2) := by
  have hall : ∀ transfers : List Transfer, ∀ o ∈ before ++ transfers.map .launchClient, o.isAside = true := by
    intro transfers o ho
    exact (List.mem_append.mp ho).elim (hb o) (aside_transfers o)
  unfold launch
  cases hstart : c.startApplication a.startApplication with
  | mk launchClient transfers =>
    simp only []
    split
    · rename_i hc
      rw [← List.append_assoc]
      exact .started launchClient _ h hr hc (hall transfers)
    · exact .failed launchClient false _ h hr nofun (hall transfers)

theorem started (s : GpgNetGameLauncher) (a : Attempt) :
    Started s (s.onStartApplication a).1 (s.onStartApplication a).2 := by
  unfold onStartApplication
  split
  · rename_i h
    exact .ignored h
  rename_i h
  have hnot : s.alreadyStarted = false := Bool.eq_false_iff.mpr h
  split
  · rename_i hr
    exact .deferred hnot (Bool.not_eq_true' _ ▸ hr)
  rename_i hr
  have hready : s.readyToStart = true := by simpa using hr
  have hfiles := aside_files s a (s.thisPlayerName ++ "'s Game".toList) (s.gamePath ++ "/online.dll".toList)
  generalize createTAInitFile a.template a.iniOpens s.iniTarget (s.thisPlayerName ++ "'s Game".toList) s.mapName
    s.playerLimit s.lockOptions s.maxUnits s.randomPositions ++
      copyOnlineDll (s.gamePath ++ "/online.dll".toList) a.dllExists = files at hfiles ⊢
  split
  · cases hverify : s.verifyGameFileVersions a with
    | mk verified rest =>
      cases rest with
      | mk launchClient transfers =>
        have hall : ∀ o ∈ files ++ transfers.map .launchClient, o.isAside = true := by
          intro o ho
          exact (List.mem_append.mp ho).elim (hfiles o) (aside_transfers o)
        simp only []
        split
        · exact started_launch s launchClient a hnot hready hall
        · exact .failed launchClient s.alreadyLaunched _ hnot hready id hall
  · exact started_launch s s.launchClient a hnot hready hfiles

end GpgNetGameLauncher

end Gpgnet4TA.App
