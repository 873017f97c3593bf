import Gpgnet4TA.App.LauncherReports

/-!
# When the game is started

The request to start the game and the word whether to host or to join come in either order. If
no attempt fails the game is started once both have come, and once only.
-/

namespace Gpgnet4TA.App
open Gpgnet4TA.Lib Gpgnet4TA.Talaunch

/-- Each file is not there, need not be verified, or is one of the permitted ones. -/
def Attempt.Permitted (a : Attempt) (gamePath : QString) (versions : List (QString × List ℤ)) : Prop :=
  ∀ version ∈ versions, a.files (gamePath ++ '/' :: version.1) = none ∨ version.2 = [] ∨
    ∃ content, a.files (gamePath ++ '/' :: version.1) = some (some content) ∧
      ((GpgNetGameLauncher.fileCrc32 content).toNat : ℤ) ∈ version.2

/-- The files are permitted and the server answers that the game runs. -/
structure Attempt.Succeeds (a : Attempt) (settings : Settings) : Prop where
  permitted : a.Permitted settings.gamePath settings.gameFileVersions
  connected : a.startApplication.connected = true
  runs : ∃ data, a.startApplication.reply = some data ∧ ∀ st, isApplicationRunning (onReadyReadTcp st data) = true

namespace GpgNetGameLauncher

theorem verifyLoop_permitted {gamePath : QString} {a : Attempt} (c : LaunchClient) {versions : List (QString × List ℤ)}
    (h : a.Permitted gamePath versions) : verifyLoop gamePath a c versions = (true, c, []) := by
  induction versions with
  | nil => rfl
  | cons version versions ih =>
    have hrest := ih fun v hv => h v (List.mem_cons_of_mem _ hv)
    rw [verifyLoop]
    rcases h version List.mem_cons_self with hnone | hempty | ⟨content, hfile, hcrc⟩
    · simp only [hnone]
      exact hrest
    · simp only [hempty]
      split
      · exact hrest
      · exact hrest
    · simp only [hfile, hcrc, if_true]
      split
      · exact hrest
      · exact hrest

theorem launch_succeeds (s : GpgNetGameLauncher) {a : Attempt} {settings : Settings} (ha : a.Succeeds settings) :
    (s.launch a).1.alreadyStarted = true := by
  obtain ⟨data, hreply, hruns⟩ := ha.runs
  have hstart : s.launchClient.startApplication a.startApplication =
      ({ s.launchClient with state := onReadyReadTcp s.launchClient.state data },
        [.write (toUtf8 ([' '].intercalate [LaunchClient.cmd s.launchClient.isHost s.launchClient.requireSearch,
          s.launchClient.gameGuid, s.launchClient.playerName, s.launchClient.gameAddress])), .readAll data]) := by
    simp only [LaunchClient.startApplication, ha.connected, if_true, LaunchClient.ask, hreply]
  simp only [launch, hstart, hruns, if_true]

theorem onStartApplication_succeeds {s : GpgNetGameLauncher} {a : Attempt} (h : s.readyToStart = true)
    (ha : a.Succeeds s.toSettings) : (s.onStartApplication a).1.alreadyStarted = true := by
  unfold onStartApplication
  split
  · assumption
  have hverify : s.verifyGameFileVersions a = (true, s.launchClient, []) := verifyLoop_permitted _ ha.permitted
  simp only [h, Bool.not_true, Bool.false_eq_true, if_false, hverify, if_true]
  split
  · exact launch_succeeds _ ha
  · exact launch_succeeds s ha

/-! ### Either order -/

/-- A request to start the game. -/
def Event.launches (autolaunch : Bool) : Event → Bool
  | .extendedMessage msg _ => "/launch".toList.isPrefixOf msg
  | .hostGame _ _ _ _ => autolaunch
  | .joinGame _ _ => autolaunch
  | _ => false

/-- The word whether to host or to join. -/
def Event.readies : Event → Bool
  | .hostGame _ _ _ _ => true
  | .joinGame _ _ => true
  | _ => false

def Event.attempts : Event → List Attempt
  | .extendedMessage _ a => [a]
  | .hostGame _ _ a a' => [a, a']
  | .joinGame a a' => [a, a']
  | _ => []

/-- The launcher's state once a start has been requested or not, and hosting or joining been said or not. -/
structure Requested (settings : Settings) (requested ready : Bool) (s : GpgNetGameLauncher) : Prop where
  settings_eq : s.toSettings = settings
  ready_eq : s.readyToStart = ready
  started_eq : s.alreadyStarted = (requested && ready)
  deferred : requested = true → ready = false → s.autoStart = true
  requested_of_auto : s.autoStart = true → requested = true

section requested

variable {settings : Settings} {requested ready : Bool} {s : GpgNetGameLauncher}

/-- These members say how far the start has got. -/
def Progress (s s' : GpgNetGameLauncher) : Prop :=
  s'.toSettings = s.toSettings ∧ s'.readyToStart = s.readyToStart ∧ s'.alreadyStarted = s.alreadyStarted ∧
    s'.autoStart = s.autoStart

theorem Requested.same (h : Requested settings requested ready s) {s' : GpgNetGameLauncher} (hs : s.Progress s') :
    Requested settings requested ready s' := by
  obtain ⟨h1, h2, h3, h4⟩ := hs
  refine ⟨h1.trans h.settings_eq, h2.trans h.ready_eq, h3.trans h.started_eq, ?_, ?_⟩
  · rw [h4]
    exact h.deferred
  · rw [h4]
    exact h.requested_of_auto

/-- A request is granted at once if the launcher is ready, and is remembered if not. -/
theorem Requested.start (h : Requested settings requested ready s) {a : Attempt} (ha : a.Succeeds settings) :
    Requested settings true ready (s.onStartApplication a).1 := by
  have hcases := started s a
  have hsucceeds := fun hr => onStartApplication_succeeds (s := s) (a := a) hr (h.settings_eq ▸ ha)
  generalize s.onStartApplication a = r at hcases hsucceeds
  obtain ⟨s', outputs⟩ := r
  cases hcases with
  | ignored hs =>
    have hboth := h.started_eq.symm.trans hs
    rw [Bool.and_eq_true] at hboth
    rw [hboth.1] at h
    exact h
  | deferred hs hr =>
    have hnot : ready = false := h.ready_eq.symm.trans hr
    exact ⟨h.settings_eq, h.ready_eq, by simp [hs, hnot], fun _ _ => rfl, fun _ => rfl⟩
  | failed launchClient alreadyLaunched outputs hs hr =>
    have hstarted : s.alreadyStarted = true := hsucceeds hr
    rw [hs] at hstarted
    cases hstarted
  | started launchClient outputs hs hr =>
    have hready : ready = true := h.ready_eq.symm.trans hr
    exact ⟨h.settings_eq, h.ready_eq, by simp [hready], fun _ hnot => by simp [hready] at hnot, fun _ => rfl⟩

theorem Started.frame {s' : GpgNetGameLauncher} {outputs : List Output} (h : Started s s' outputs) :
    s'.toSettings = s.toSettings ∧ s'.readyToStart = s.readyToStart := by
  cases h <;> exact ⟨rfl, rfl⟩

/-- Once it is ready the launcher grants the request that it remembers. -/
theorem Requested.deferredStart (h : Requested settings requested ready s) (s' : GpgNetGameLauncher)
    (hset : s'.toSettings = s.toSettings) (hr : s'.readyToStart = true) (hs : s'.alreadyStarted = s.alreadyStarted)
    (hauto : s'.autoStart = s.autoStart) {a : Attempt} (ha : a.Succeeds settings) :
    Requested settings requested true (s'.deferredStart a).1 := by
  have hsettings := hset.trans h.settings_eq
  unfold GpgNetGameLauncher.deferredStart
  split
  · rename_i hdeferred
    have hrequested : requested = true := h.requested_of_auto (hauto ▸ hdeferred)
    obtain ⟨hset', hr'⟩ := (started s' a).frame
    refine ⟨hset'.trans hsettings, hr'.trans hr, ?_, nofun, fun _ => hrequested⟩
    rw [onStartApplication_succeeds hr (hsettings ▸ ha), hrequested]
    rfl
  · rename_i hdeferred
    refine ⟨hsettings, hr, ?_, nofun, fun hd => absurd hd hdeferred⟩
    rw [hs, h.started_eq]
    cases hrequested : requested with
    | false => rfl
    | true =>
      cases hready : ready with
      | true => rfl
      | false => exact absurd (hauto.trans (h.deferred hrequested hready)) hdeferred

theorem Requested.onHostGame (h : Requested settings requested ready s) (mapName mapDetails : QString) {a : Attempt}
    (ha : a.Succeeds settings) : Requested settings requested true (s.onHostGame mapName mapDetails a).1 := by
  have hstart := h.deferredStart (s.setUpHost mapName) rfl rfl rfl rfl ha
  exact hstart.same ⟨rfl, rfl, rfl, rfl⟩

theorem Requested.onJoinGame (h : Requested settings requested ready s) {a : Attempt} (ha : a.Succeeds settings) :
    Requested settings requested true (s.onJoinGame a).1 :=
  h.deferredStart s.setUpJoin rfl rfl rfl rfl ha

theorem Requested.hostGame (h : Requested settings requested ready s) (mapName mapDetails : QString) {a a' : Attempt}
    (ha : a.Succeeds settings) (ha' : a'.Succeeds settings) :
    Requested settings (requested || settings.autolaunch) true (s.hostGame mapName mapDetails a a').1 := by
  have hhost := h.onHostGame mapName mapDetails ha
  simp only [GpgNetGameLauncher.hostGame, hhost.settings_eq]
  cases settings.autolaunch with
  | true =>
    rw [Bool.or_true]
    exact hhost.start ha'
  | false =>
    rw [Bool.or_false]
    exact hhost

theorem Requested.joinGame (h : Requested settings requested ready s) {a a' : Attempt} (ha : a.Succeeds settings)
    (ha' : a'.Succeeds settings) : Requested settings (requested || settings.autolaunch) true (s.joinGame a a').1 := by
  have hjoin := h.onJoinGame ha
  simp only [GpgNetGameLauncher.joinGame, hjoin.settings_eq]
  cases settings.autolaunch with
  | true =>
    rw [Bool.or_true]
    exact hjoin.start ha'
  | false =>
    rw [Bool.or_false]
    exact hjoin

theorem Requested.onExtendedMessage (h : Requested settings requested ready s) (msg : QString) {a : Attempt}
    (ha : a.Succeeds settings) :
    Requested settings (requested || "/launch".toList.isPrefixOf msg) ready (s.onExtendedMessage msg a).1 := by
  unfold GpgNetGameLauncher.onExtendedMessage
  cases hlaunch : "/launch".toList.isPrefixOf msg with
  | true =>
    rw [if_pos rfl, Bool.or_true]
    split
    · exact h.start ha
    · have hordered : Requested settings requested ready { s with randomPositions := false } :=
        h.same ⟨rfl, rfl, rfl, rfl⟩
      exact hordered.start ha
  | false =>
    rw [if_neg Bool.false_ne_true, Bool.or_false]
    split
    · unfold onMapMessage
      split
      · exact h
      split
      · exact h
      · exact h.same ⟨rfl, rfl, rfl, rfl⟩
    split
    · exact h.same ⟨rfl, rfl, rfl, rfl⟩
    split
    · exact h.same ⟨rfl, rfl, rfl, rfl⟩
    split
    · exact h
    split
    · exact h
    split
    · exact h
    split
    · unfold onQuitMessage
      split
      · exact h
      simp only []
      split
      · exact h.same ⟨rfl, rfl, rfl, rfl⟩
      · exact h.same ⟨rfl, rfl, rfl, rfl⟩
    · exact h

theorem Requested.step (h : Requested settings requested ready s) {e : Event} {r : GpgNetGameLauncher × List Output}
    (hok : ∀ a ∈ e.attempts, a.Succeeds settings) (hstep : s.step e = some r) :
    Requested settings (requested || e.launches settings.autolaunch) (ready || e.readies) r.1 := by
  cases e with
  | hostGame mapName mapDetails a a' =>
    obtain rfl := Option.some.inj hstep
    simp only [Event.readies, Event.launches, Bool.or_true]
    exact h.hostGame mapName mapDetails (hok a List.mem_cons_self) (hok a' (List.mem_cons_of_mem _ List.mem_cons_self))
  | joinGame a a' =>
    obtain rfl := Option.some.inj hstep
    simp only [Event.readies, Event.launches, Bool.or_true]
    exact h.joinGame (hok a List.mem_cons_self) (hok a' (List.mem_cons_of_mem _ List.mem_cons_self))
  | extendedMessage msg a =>
    obtain rfl := Option.some.inj hstep
    simp only [Event.readies, Event.launches, Bool.or_false]
    exact h.onExtendedMessage msg (hok a List.mem_cons_self)
  | createLobby playerName playerId =>
    obtain rfl := Option.some.inj hstep
    simp only [Event.readies, Event.launches, Bool.or_false]
    exact h.same ⟨rfl, rfl, rfl, rfl⟩
  | readyReadTcp data =>
    obtain rfl := Option.some.inj hstep
    simp only [Event.readies, Event.launches, Bool.or_false]
    exact h.same ⟨rfl, rfl, rfl, rfl⟩
  | unconnected =>
    obtain rfl := Option.some.inj hstep
    simp only [Event.readies, Event.launches, Bool.or_false]
    exact h.same ⟨rfl, rfl, rfl, rfl⟩
  | pollJdplayStillActive =>
    simp only [GpgNetGameLauncher.step] at hstep
    split at hstep
    · obtain rfl := Option.some.inj hstep
      simp only [Event.readies, Event.launches, Bool.or_false]
      unfold GpgNetGameLauncher.pollJdplayStillActive
      split
      · exact h.same ⟨rfl, rfl, rfl, rfl⟩
      split
      · exact h.same ⟨rfl, rfl, rfl, rfl⟩
      · exact h
    · cases hstep
  | resetQuitCount =>
    simp only [GpgNetGameLauncher.step] at hstep
    split at hstep
    · obtain rfl := Option.some.inj hstep
      simp only [Event.readies, Event.launches, Bool.or_false]
      exact h.same ⟨rfl, rfl, rfl, rfl⟩
    · cases hstep

theorem Requested.run {es : List Event} {s' : GpgNetGameLauncher} {outputs : List Output}
    (h : Requested settings requested ready s) (hok : ∀ e ∈ es, ∀ a ∈ e.attempts, a.Succeeds settings)
    (hrun : exec GpgNetGameLauncher.step s es = some (s', outputs)) :
    Requested settings (requested || es.any (Event.launches settings.autolaunch)) (ready || es.any Event.readies) s' := by
  induction es generalizing s requested ready outputs with
  | nil =>
    cases hrun
    rw [List.any_nil, List.any_nil, Bool.or_false, Bool.or_false]
    exact h
  | cons e es ih =>
    obtain ⟨t, o, o', hstep, hrest, -⟩ := exec_cons_some hrun
    have hfirst := h.step (hok e List.mem_cons_self) hstep
    have hall := ih hfirst (fun e' he' => hok e' (List.mem_cons_of_mem _ he')) hrest
    rwa [Bool.or_assoc, Bool.or_assoc] at hall

end requested

/-! ### Once -/

/-- The starts that have been told of in a phase. -/
def Phase.starts : Phase → ℕ
  | .lobby => 0
  | .starting => 0
  | _ => 1

theorem count_tell {t t' : Phase} {o : Output} (h : t.tell o = some t') :
    t'.starts = t.starts + [o].count .applicationStarted := by
  cases o with
  | sendGameState state substate =>
    simp only [Phase.tell] at h
    split at h
    · cases h
      simp
    split at h
    · split at h
      · rename_i ht
        cases h
        rw [ht]
        rfl
      · cases h
    split at h
    · split at h
      · rename_i ht
        cases h
        rw [ht]
        rfl
      · cases h
    · cases h
  | sendPlayerOption playerId key value => cases h; simp
  | sendGameOption key value =>
    simp only [Phase.tell, Option.ite_none_right_eq_some] at h
    cases h.2
    simp
  | launchClient transfer =>
    cases transfer with
    | write data =>
      simp only [Phase.tell, Option.ite_none_right_eq_some] at h
      cases h.2
      simp
    | readAll data => cases h; simp
  | writeFile name text =>
    simp only [Phase.tell, Option.ite_none_right_eq_some] at h
    cases h.2
    simp
  | copyFile target =>
    simp only [Phase.tell, Option.ite_none_right_eq_some] at h
    cases h.2
    simp
  | applicationStarted =>
    simp only [Phase.tell, Option.ite_none_right_eq_some] at h
    rw [h.1, ← Option.some.inj h.2]
    rfl
  | sendGameEnded =>
    simp only [Phase.tell, Option.ite_none_right_eq_some] at h
    rcases h.1 with ht | ht
    · rw [ht, ← Option.some.inj h.2]
      rfl
    · rw [ht, ← Option.some.inj h.2]
      rfl
  | applicationTerminated =>
    simp only [Phase.tell, Option.ite_none_right_eq_some] at h
    rw [h.1, ← Option.some.inj h.2]
    rfl
  | quit => cases h; simp

theorem count_observe {t t' : Phase} {outputs : List Output} (h : observe Phase.tell t outputs = some t') :
    t'.starts = t.starts + outputs.count .applicationStarted := by
  induction outputs generalizing t with
  | nil =>
    cases h
    rfl
  | cons o outputs ih =>
    obtain ⟨t1, htell, hrest⟩ := Option.bind_eq_some_iff.mp h
    have hsplit : (o :: outputs).count .applicationStarted =
        [o].count .applicationStarted + outputs.count .applicationStarted := by
      rw [← List.count_append]
      rfl
    rw [ih hrest, count_tell htell, hsplit, Nat.add_assoc]

/-- Where no attempt fails, the game has been started, once, exactly if both a request to start it and
the word whether to host or to join have come, in either order and however often. -/
theorem started_iff {settings : Settings} {c : LaunchClient} {id : ℤ} {verify : Bool} {es : List Event}
    {s : GpgNetGameLauncher} {outputs : List Output} (h : exec step (new settings c id verify) es = some (s, outputs))
    (hok : ∀ e ∈ es, ∀ a ∈ e.attempts, a.Succeeds settings) :
    outputs.count .applicationStarted =
      if (∃ e ∈ es, e.launches settings.autolaunch = true) ∧ ∃ e ∈ es, e.readies = true then 1 else 0 := by
  have hnew : Requested settings false false (new settings c id verify) := ⟨rfl, rfl, rfl, nofun, nofun⟩
  have hrun := (hnew.run hok h).started_eq
  have hcount := count_observe (reported_phase h)
  rw [Bool.false_or, Bool.false_or] at hrun
  have hphase : s.phase.starts = if s.alreadyStarted then 1 else 0 := by
    unfold phase
    cases s.alreadyStarted <;> cases s.pollStillActiveTimer <;> cases s.alreadyLaunched <;> rfl
  have hzero : Phase.lobby.starts = 0 := rfl
  rw [hzero, Nat.zero_add, hphase, hrun] at hcount
  rw [← hcount]
  simp only [Bool.and_eq_true, List.any_eq_true]

theorem started_iff_deferred :
    let a : Attempt := ⟨none, false, true, fun _ => none, ⟨false, none⟩, ⟨true, some (notifyClients .running)⟩⟩
    let es : List Event := [.extendedMessage "/launch".toList a, .joinGame a a, .extendedMessage "/launch".toList a]
    ∃ s outputs, exec step (new ⟨[], [], [], 10, false, 1000, [], false⟩ (LaunchClient.new true) 7 false) es =
        some (s, outputs) ∧
      outputs.count .applicationStarted =
        if (∃ e ∈ es, e.launches false = true) ∧ ∃ e ∈ es, e.readies = true then 1 else 0 := by
  intro a es
  have ha : a.Succeeds ⟨[], [], [], 10, false, 1000, [], false⟩ :=
    ⟨nofun, rfl, notifyClients .running, rfl, fun st => by cases st <;> decide⟩
  have hrun : ∃ s outputs, exec step (new ⟨[], [], [], 10, false, 1000, [], false⟩ (LaunchClient.new true) 7 false) es =
      some (s, outputs) := ⟨_, _, rfl⟩
  obtain ⟨s, outputs, hrun⟩ := hrun
  refine ⟨s, outputs, hrun, started_iff hrun ?_⟩
  intro e he b hb
  have hsame : ∀ e ∈ es, ∀ b ∈ e.attempts, b = a := by simp [es, Event.attempts]
  rw [hsame e he b hb]
  exact ha

end GpgNetGameLauncher

end Gpgnet4TA.App
