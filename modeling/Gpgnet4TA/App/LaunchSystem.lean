import Gpgnet4TA.App.LauncherReports

/-!
# Launcher and launch server

The launcher only knows what its reads tell it. Whatever way the bytes that the server has
written are cut into reads, and whatever happens on both sides in between, it reports a launch
only if the server runs a hosted game that nobody can join any more.
-/

namespace Gpgnet4TA.Talaunch
open Gpgnet4TA.Lib

theorem mem_of_mem_starts {base : ℕ} {msgs : List StatusMessage} {x : ℕ × StatusMessage} (h : x ∈ starts base msgs) :
    x.2 ∈ msgs := by
  induction msgs generalizing base with
  | nil => exact absurd h List.not_mem_nil
  | cons m msgs ih =>
    rcases List.mem_cons.mp h with rfl | h
    · exact List.mem_cons_self
    · exact List.mem_cons_of_mem _ (ih h)

/-- A read of what the server has written changes nothing or tells the state that some message names. -/
theorem read_told {msgs : List StatusMessage} {reads : List Bytes} (h : reads.flatten <+: written msgs) {data : Bytes}
    (hd : data ∈ reads) (st : State) : onReadyReadTcp st data = st ∨ ∃ m ∈ msgs, onReadyReadTcp st data = m.state := by
  obtain ⟨before, after, rfl⟩ := List.append_of_mem hd
  obtain ⟨rest, hrest⟩ := h
  have hplace : data ++ (after.flatten ++ rest) = (written msgs).drop before.flatten.length := by
    rw [← hrest]
    simp
  rw [onReadyReadTcp_read hplace]
  cases hheard : heardAt (starts 0 msgs) before.flatten.length data.length with
  | none => exact Or.inl rfl
  | some m =>
    obtain ⟨x, hx, rfl⟩ := Option.map_eq_some_iff.mp hheard
    exact Or.inr ⟨x.2, mem_of_mem_starts (List.mem_of_find?_eq_some hx), rfl⟩

end Gpgnet4TA.Talaunch

namespace Gpgnet4TA.App
open Gpgnet4TA.Lib Gpgnet4TA.Talaunch

namespace GpgNetGameLauncher

/-- The reads of the launch client. -/
def reads (outputs : List Output) : List Bytes := outputs.filterMap fun
  | .launchClient (.readAll data) => some data
  | _ => none

theorem reads_append (outputs outputs' : List Output) : reads (outputs ++ outputs') = reads outputs ++ reads outputs' :=
  List.filterMap_append

section sound

variable {msgs : List StatusMessage} {s : GpgNetGameLauncher}

/-- A state in which the game runs goes back to a message. -/
structure Believes (msgs : List StatusMessage) (st : State) : Prop where
  running : st = .RUNNING → .running ∈ msgs
  launched : st = .LAUNCHED → .launched ∈ msgs

theorem believes_idle {st : State} (hr : st ≠ .RUNNING) (hl : st ≠ .LAUNCHED) : Believes msgs st :=
  ⟨fun h => absurd h hr, fun h => absurd h hl⟩

theorem believes_fail : Believes msgs .FAIL := believes_idle (by decide) (by decide)

theorem believes_connecting : Believes msgs .CONNECTING := believes_idle (by decide) (by decide)

theorem believes_state {m : StatusMessage} (h : m ∈ msgs) : Believes msgs m.state := by
  refine ⟨fun hs => ?_, fun hs => ?_⟩
  · cases m <;> first | exact h | cases hs
  · cases m <;> first | exact h | cases hs

theorem Believes.of_running {st : State} (h : Believes msgs st) (hr : isApplicationRunning st = true) :
    .running ∈ msgs ∨ .launched ∈ msgs := by
  rw [isApplicationRunning, Bool.or_eq_true, decide_eq_true_eq, decide_eq_true_eq] at hr
  exact hr.imp h.running h.launched

/-- A read changes nothing or tells the state of one of the messages. -/
def Honest (msgs : List StatusMessage) (outputs : List Output) : Prop :=
  ∀ data ∈ reads outputs, ∀ st, onReadyReadTcp st data = st ∨ ∃ m ∈ msgs, onReadyReadTcp st data = m.state

theorem Honest.left {outputs outputs' : List Output} (h : Honest msgs (outputs ++ outputs')) : Honest msgs outputs :=
  fun data hd => h data (by rw [reads_append]; exact List.mem_append_left _ hd)

theorem Honest.right {outputs outputs' : List Output} (h : Honest msgs (outputs ++ outputs')) : Honest msgs outputs' :=
  fun data hd => h data (by rw [reads_append]; exact List.mem_append_right _ hd)

theorem Believes.read {st : State} {data : Bytes} {outputs : List Output} (h : Believes msgs st)
    (ho : Honest msgs outputs) (hd : data ∈ reads outputs) : Believes msgs (onReadyReadTcp st data) := by
  rcases ho data hd st with heq | ⟨m, hm, heq⟩
  · rw [heq]
    exact h
  · rw [heq]
    exact believes_state hm

theorem Believes.ask {c : LaunchClient} (h : Believes msgs c.state) (message : QString) (reply : Option Bytes)
    (ho : Honest msgs ((c.ask message reply).2.map .launchClient)) : Believes msgs (c.ask message reply).1.state := by
  cases reply with
  | none => exact believes_fail
  | some data => exact h.read ho List.mem_cons_self

theorem Believes.failGameFileVersions {c : LaunchClient} (h : Believes msgs c.state) (filename reason : QString)
    (w : Wait) (ho : Honest msgs ((c.failGameFileVersions filename reason w).2.map .launchClient)) :
    Believes msgs (c.failGameFileVersions filename reason w).1.state := by
  unfold LaunchClient.failGameFileVersions at ho ⊢
  split at ho
  · rename_i hw
    rw [if_pos hw]
    exact h.ask _ _ ho
  · rename_i hw
    rw [if_neg hw]
    exact h

theorem Believes.startApplication {c : LaunchClient} (h : Believes msgs c.state) (w : Wait)
    (ho : Honest msgs ((c.startApplication w).2.map .launchClient)) : Believes msgs (c.startApplication w).1.state := by
  unfold LaunchClient.startApplication at ho ⊢
  split at ho
  · rename_i hw
    rw [if_pos hw]
    exact h.ask _ _ ho
  · rename_i hw
    rw [if_neg hw]
    exact believes_connecting

theorem Believes.verifyLoop {gamePath : QString} {a : Attempt} {c : LaunchClient} (h : Believes msgs c.state)
    (versions : List (QString × List ℤ)) (ho : Honest msgs ((verifyLoop gamePath a c versions).2.2.map .launchClient)) :
    Believes msgs (verifyLoop gamePath a c versions).2.1.state := by
  induction versions with
  | nil => exact h
  | cons version versions ih =>
    unfold GpgNetGameLauncher.verifyLoop at ho ⊢
    simp only [] at ho ⊢
    split
    · rename_i hfile
      rw [hfile] at ho
      exact ih ho
    rename_i file hfile
    rw [hfile] at ho
    simp only [] at ho
    split
    · rename_i hempty
      rw [if_pos hempty] at ho
      exact ih ho
    rename_i hempty
    rw [if_neg hempty] at ho
    cases file with
    | none => exact h.failGameFileVersions _ _ _ ho
    | some content =>
      simp only [] at ho ⊢
      split
      · rename_i hcrc
        rw [if_pos hcrc] at ho
        exact ih ho
      · rename_i hcrc
        rw [if_neg hcrc] at ho
        exact h.failGameFileVersions _ _ _ ho

/-- What a handler believes and reports goes back to a message, if what it reads does. -/
def Sound (msgs : List StatusMessage) (s : GpgNetGameLauncher) (r : GpgNetGameLauncher × List Output) : Prop :=
  Believes msgs s.launchClient.state → Honest msgs r.2 →
    Believes msgs r.1.launchClient.state ∧ (∀ state, .sendGameState state "Launching" ∈ r.2 → .launched ∈ msgs) ∧
      ∀ state, .sendGameState state "Battleroom" ∈ r.2 → .running ∈ msgs ∨ .launched ∈ msgs

theorem Sound.trans {r r' : GpgNetGameLauncher × List Output} (h : Sound msgs s r) (h' : Sound msgs r.1 r') :
    Sound msgs s (r'.1, r.2 ++ r'.2) := by
  intro hb ho
  obtain ⟨hb1, hl1, hr1⟩ := h hb ho.left
  obtain ⟨hb2, hl2, hr2⟩ := h' hb1 ho.right
  refine ⟨hb2, fun state hm => ?_, fun state hm => ?_⟩
  · exact (List.mem_append.mp hm).elim (hl1 state) (hl2 state)
  · exact (List.mem_append.mp hm).elim (hr1 state) (hr2 state)

/-- Neither a state is reported nor does the launch client change its own. -/
theorem Sound.of_silent {r : GpgNetGameLauncher × List Output} (hc : r.1.launchClient.state = s.launchClient.state)
    (ho : ∀ state, .sendGameState state "Launching" ∉ r.2 ∧ .sendGameState state "Battleroom" ∉ r.2) :
    Sound msgs s r := by
  intro hb _
  rw [hc]
  exact ⟨hb, fun state hm => absurd hm (ho state).1, fun state hm => absurd hm (ho state).2⟩

theorem Sound.nothing {s' : GpgNetGameLauncher} (hc : s'.launchClient.state = s.launchClient.state) :
    Sound msgs s (s', []) :=
  Sound.of_silent hc fun _ => ⟨List.not_mem_nil, List.not_mem_nil⟩

theorem Sound.after {r : GpgNetGameLauncher × List Output} {s' : GpgNetGameLauncher} (h : Sound msgs s r)
    (hc : s'.launchClient.state = r.1.launchClient.state) : Sound msgs s (s', r.2) := by
  intro hb ho
  have hall := h hb ho
  rw [← hc] at hall
  exact hall

theorem not_mem_of_aside {outputs : List Output} (h : ∀ o ∈ outputs, o.isAside = true) (state substate : String) :
    .sendGameState state substate ∉ outputs := fun hm => Bool.false_ne_true (h _ hm)

theorem Believes.launch (h : Believes msgs s.launchClient.state) (a : Attempt) (ho : Honest msgs (s.launch a).2) :
    Believes msgs (s.launch a).1.launchClient.state := by
  have hstart := h.startApplication a.startApplication
  simp only [GpgNetGameLauncher.launch] at ho ⊢
  split
  · rename_i hc
    rw [if_pos hc] at ho
    exact hstart ho.left
  · rename_i hc
    rw [if_neg hc] at ho
    exact hstart ho

theorem Believes.onStartApplication (h : Believes msgs s.launchClient.state) (a : Attempt)
    (ho : Honest msgs (s.onStartApplication a).2) : Believes msgs (s.onStartApplication a).1.launchClient.state := by
  unfold GpgNetGameLauncher.onStartApplication at ho ⊢
  split
  · exact h
  rename_i hs
  rw [if_neg hs] at ho
  split
  · exact h
  rename_i hr
  rw [if_neg hr] at ho
  simp only [] at ho ⊢
  split
  · rename_i hverify
    rw [if_pos hverify] at ho
    split
    · rename_i hverified
      rw [if_pos hverified] at ho
      have hloop := h.verifyLoop s.gameFileVersions ho.left.right
      exact Believes.launch (s := { s with launchClient := (s.verifyGameFileVersions a).2.1 }) hloop a ho.right
    · rename_i hverified
      rw [if_neg hverified] at ho
      exact h.verifyLoop s.gameFileVersions ho.right
  · rename_i hverify
    rw [if_neg hverify] at ho
    exact h.launch a ho.right

theorem sound_onStartApplication (s : GpgNetGameLauncher) (a : Attempt) : Sound msgs s (s.onStartApplication a) := by
  intro hb ho
  have hbelieves := hb.onStartApplication a ho
  refine ⟨hbelieves, ?_⟩
  have hcases := started s a
  generalize s.onStartApplication a = r at hcases hbelieves
  obtain ⟨s', outputs⟩ := r
  cases hcases with
  | ignored h => exact ⟨nofun, nofun⟩
  | deferred h hr => exact ⟨nofun, nofun⟩
  | failed launchClient alreadyLaunched outputs h hr hl haside =>
    exact ⟨fun state hm => absurd hm (not_mem_of_aside haside _ _), fun state hm => absurd hm (not_mem_of_aside haside _ _)⟩
  | started launchClient outputs h hr hc haside =>
    refine ⟨fun state hm => ?_, fun state _ => hbelieves.of_running hc⟩
    rcases List.mem_append.mp hm with hm | hm
    · exact absurd hm (not_mem_of_aside haside _ _)
    · simp at hm

theorem sound_deferredStart (s : GpgNetGameLauncher) (a : Attempt) : Sound msgs s (s.deferredStart a) := by
  unfold deferredStart
  split
  · exact sound_onStartApplication s a
  · exact Sound.nothing rfl

theorem sound_onHostGame (s : GpgNetGameLauncher) (mapName mapDetails : QString) (a : Attempt) :
    Sound msgs s (s.onHostGame mapName mapDetails a) := by
  have hstart : Sound msgs s ((s.setUpHost mapName).deferredStart a) := sound_deferredStart (s.setUpHost mapName) a
  have hoptions : Sound msgs ((s.setUpHost mapName).deferredStart a).1 ((s.onHostGame mapName mapDetails a).1,
      [.sendPlayerOption (number ((s.setUpHost mapName).deferredStart a).1.thisPlayerId) "Team".toList 1,
        .sendGameOption "Slots" (.int ((s.setUpHost mapName).deferredStart a).1.playerLimit),
        .sendGameOption "MapDetails" (.text mapDetails)]) := Sound.of_silent rfl fun _ => ⟨by simp, by simp⟩
  exact hstart.trans hoptions

theorem sound_onJoinGame (s : GpgNetGameLauncher) (a : Attempt) : Sound msgs s (s.onJoinGame a) := by
  have hstart : Sound msgs s (s.setUpJoin.deferredStart a) := sound_deferredStart s.setUpJoin a
  have hteam : Sound msgs (s.setUpJoin.deferredStart a).1 ((s.setUpJoin.deferredStart a).1,
      [.sendPlayerOption (number (s.setUpJoin.deferredStart a).1.thisPlayerId) "Team".toList 1]) :=
    Sound.of_silent rfl fun _ => ⟨by simp, by simp⟩
  exact hstart.trans hteam

theorem sound_onExtendedMessage (s : GpgNetGameLauncher) (msg : QString) (a : Attempt) :
    Sound msgs s (s.onExtendedMessage msg a) := by
  have hoption : ∀ key value, Sound msgs s (s, s.hostOption key value) := by
    intro key value
    refine Sound.of_silent rfl fun state => ?_
    unfold hostOption
    split
    · exact ⟨nofun, nofun⟩
    split
    · exact ⟨nofun, nofun⟩
    · exact ⟨by simp, by simp⟩
  unfold onExtendedMessage
  split
  · split
    · exact sound_onStartApplication s a
    · exact sound_onStartApplication { s with randomPositions := false } a
  split
  · unfold onMapMessage
    split
    · exact Sound.nothing rfl
    split
    · exact Sound.nothing rfl
    · exact (hoption "MapDetails" _).after rfl
  split
  · exact Sound.nothing rfl
  split
  · exact Sound.nothing rfl
  split
  · exact hoption _ _
  split
  · exact hoption _ _
  split
  · exact hoption _ _
  split
  · unfold onQuitMessage
    split
    · exact Sound.of_silent rfl fun _ => ⟨by simp, by simp⟩
    simp only []
    split
    · exact Sound.of_silent rfl fun _ => ⟨by simp, by simp⟩
    · exact Sound.nothing rfl
  · exact Sound.nothing rfl

theorem sound_step {e : Event} {r : GpgNetGameLauncher × List Output} (h : s.step e = some r) : Sound msgs s r := by
  cases e with
  | createLobby playerName playerId =>
    obtain rfl := Option.some.inj h
    exact Sound.of_silent rfl fun _ => ⟨by simp [onCreateLobby], by simp [onCreateLobby]⟩
  | hostGame mapName mapDetails a a' =>
    obtain rfl := Option.some.inj h
    have hhost : Sound msgs s (s.onHostGame mapName mapDetails a) := sound_onHostGame s mapName mapDetails a
    simp only [hostGame]
    split
    · exact hhost.trans (sound_onStartApplication _ a')
    · exact hhost
  | joinGame a a' =>
    obtain rfl := Option.some.inj h
    have hjoin : Sound msgs s (s.onJoinGame a) := sound_onJoinGame s a
    simp only [joinGame]
    split
    · exact hjoin.trans (sound_onStartApplication _ a')
    · exact hjoin
  | extendedMessage msg a =>
    obtain rfl := Option.some.inj h
    exact sound_onExtendedMessage s msg a
  | pollJdplayStillActive =>
    simp only [step] at h
    split at h
    · obtain rfl := Option.some.inj h
      unfold pollJdplayStillActive
      split
      · exact Sound.of_silent rfl fun _ => ⟨by simp, by simp⟩
      split
      · rename_i hlaunch
        intro hb _
        rw [Bool.and_eq_true, isGameLaunched, decide_eq_true_eq] at hlaunch
        exact ⟨hb, fun _ _ => hb.launched hlaunch.2, by simp⟩
      · exact Sound.nothing rfl
    · cases h
  | resetQuitCount =>
    simp only [step] at h
    split at h
    · obtain rfl := Option.some.inj h
      exact Sound.nothing rfl
    · cases h
  | readyReadTcp data =>
    obtain rfl := Option.some.inj h
    intro hb ho
    exact ⟨hb.read ho List.mem_cons_self, by simp, by simp⟩
  | unconnected =>
    obtain rfl := Option.some.inj h
    intro _ _
    exact ⟨believes_connecting, by simp, by simp⟩

theorem sound_run {es : List Event} {s' : GpgNetGameLauncher} {outputs : List Output}
    (h : exec step s es = some (s', outputs)) : Sound msgs s (s', outputs) := by
  have hall := exec_invariant (P := fun _ outputs s' => Sound msgs s (s', outputs))
    (fun _ _ _ _ _ _ hs hstep => hs.trans (sound_step hstep)) es [] []
    (Sound.nothing rfl) h
  exact hall

end sound

/-- Whatever happens to the launcher and, at the other end of its one connection, to the server from
its start on: a launch is reported only if the server has been running a hosted game that nobody
could join any more, and the battleroom only if the server has told that a game runs. -/
theorem launch_reported_of_launched {settings : Settings} {id : ℤ} {verify connected : Bool}
    {es : List Event} {s : GpgNetGameLauncher} {outputs : List Output}
    (h : exec step (new settings (LaunchClient.new connected) id verify) es = some (s, outputs))
    {keepAliveTimeout : ℤ} {ses : List LaunchServer.Event} {server : LaunchServer} {signals : List Signal}
    (hserver : exec LaunchServer.step (LaunchServer.new keepAliveTimeout) ses = some (server, signals))
    (hreads : (reads outputs).flatten <+: written (LaunchServer.notifications signals)) :
    (∀ state, .sendGameState state "Launching" ∈ outputs →
        ∃ before after server' signals', ses = before ++ after ∧
          exec LaunchServer.step (LaunchServer.new keepAliveTimeout) before = some (server', signals') ∧
          server'.joinIsDisabled = true ∧ ∃ game, server'.jdPlay = some game ∧ game.isHost = true) ∧
      (∀ state, .sendGameState state "Battleroom" ∈ outputs →
        ∃ before after server' signals', ses = before ++ after ∧
          exec LaunchServer.step (LaunchServer.new keepAliveTimeout) before = some (server', signals') ∧
          server'.jdPlay.isSome = true) := by
  have hbelieves : Believes (LaunchServer.notifications signals) (LaunchClient.new connected).state := by
    cases connected with
    | false => exact ⟨nofun, nofun⟩
    | true => exact ⟨nofun, nofun⟩
  have hhonest : Honest (LaunchServer.notifications signals) outputs := fun data hd st => read_told hreads hd st
  obtain ⟨-, hlaunching, hbattleroom⟩ := sound_run h hbelieves hhonest
  have hsignal : ∀ m, m ∈ LaunchServer.notifications signals → .notifyClients m ∈ signals := by
    intro m hm
    obtain ⟨signal, hin, hsome⟩ := List.mem_filterMap.mp hm
    cases signal with
    | notifyClients m' =>
      cases hsome
      exact hin
    | gameFailedToLaunch gameGuid => cases hsome
    | gameExitedWithError exitCode => cases hsome
    | gameFileVersionMismatch message => cases hsome
    | quit => cases hsome
  constructor
  · intro state hstate
    obtain ⟨before, after, server', signals', told, hses, hrun, hin, htells⟩ :=
      LaunchServer.told_at hserver (hsignal _ (hlaunching state hstate))
    exact ⟨before, after, server', signals', hses, hrun, htells.launched hin⟩
  · intro state hstate
    rcases hbattleroom state hstate with hm | hm
    · obtain ⟨before, after, server', signals', told, hses, hrun, hin, htells⟩ :=
        LaunchServer.told_at hserver (hsignal _ hm)
      exact ⟨before, after, server', signals', hses, hrun, htells.running hin⟩
    · obtain ⟨before, after, server', signals', told, hses, hrun, hin, htells⟩ :=
        LaunchServer.told_at hserver (hsignal _ hm)
      obtain ⟨-, game, hgame, -⟩ := htells.launched hin
      exact ⟨before, after, server', signals', hses, hrun, by rw [hgame]; rfl⟩

theorem launch_reported_of_launched_hosted :
    let a : Attempt := ⟨none, false, true, fun _ => none, ⟨false, none⟩, ⟨true, some (notifyClients .running)⟩⟩
    let ses : List LaunchServer.Event := [.readyReadTcp (ascii "/host g p a") ⟨true, (false, false, false), true⟩,
      .timerEvent STILL_ACTIVE true]
    ∃ s outputs, exec step (new ⟨[], [], [], 10, false, 1000, [], false⟩ (LaunchClient.new true) 7 false)
        [.hostGame [] [] a a, .extendedMessage "/launch".toList a, .readyReadTcp (notifyClients .launched),
          .pollJdplayStillActive] = some (s, outputs) ∧
      (∀ state, .sendGameState state "Launching" ∈ outputs →
        ∃ before after server' signals', ses = before ++ after ∧
          exec LaunchServer.step (LaunchServer.new 10) before = some (server', signals') ∧
          server'.joinIsDisabled = true ∧ ∃ game, server'.jdPlay = some game ∧ game.isHost = true) ∧
      (∀ state, .sendGameState state "Battleroom" ∈ outputs →
        ∃ before after server' signals', ses = before ++ after ∧
          exec LaunchServer.step (LaunchServer.new 10) before = some (server', signals') ∧
          server'.jdPlay.isSome = true) := by
  intro a ses
  have hserver : exec LaunchServer.step (LaunchServer.new 10) ses =
      some (⟨10, some ⟨ascii "g", ascii "p", ascii "a", true⟩, 10, true⟩,
        [.notifyClients .running, .notifyClients .launched]) := by rfl
  have hlauncher : (exec step (new ⟨[], [], [], 10, false, 1000, [], false⟩ (LaunchClient.new true) 7 false)
      [.hostGame [] [] a a, .extendedMessage "/launch".toList a, .readyReadTcp (notifyClients .launched),
        .pollJdplayStillActive]).map (fun r => reads r.2) =
          some [notifyClients .running, notifyClients .launched] := by rfl
  obtain ⟨⟨s, outputs⟩, hrun, hreads⟩ := Option.map_eq_some_iff.mp hlauncher
  refine ⟨s, outputs, hrun, launch_reported_of_launched hrun hserver ?_⟩
  simp only [hreads]
  decide +kernel

end GpgNetGameLauncher

end Gpgnet4TA.App
