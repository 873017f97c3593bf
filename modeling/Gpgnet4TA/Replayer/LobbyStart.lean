import Gpgnet4TA.Replayer.LiveReplay

/-!
# When a replay starts

It is launched when every guest has gone through the synchronisation of the units and has clicked in,
and it plays when every guest plays.
-/

namespace Gpgnet4TA.Replayer
open Gpgnet4TA.Lib Gpgnet4TA.Tapacket

/-- A guest who waits for the start, and who has been warned if he only wants to watch. -/
def DpPlayer.Ready (p : DpPlayer) : Prop :=
  p.state = .WAIT_GO ∧ ∃ info, TPlayerInfo.ofSubPacket p.statusPacket 0 = some info ∧ info.isClickedIn = true ∧
    (info.isWatcher = false ∨ p.warnedWatcherState = .PROCEED_REGARDLESS)

theorem Demo.waitGo_ready {demo : Demo} {p p' : DpPlayer} {go : ℕ} {sent : List Sent} (hstate : p.state = .WAIT_GO)
    (h : demo.waitGo p = some (go, p', sent)) : go ≤ 1 ∧ (go = 1 → p' = p ∧ p.Ready) := by
  obtain ⟨info, hinfo, h⟩ := Option.bind_eq_some_iff.mp h
  split at h
  · rename_i hgo
    cases h
    refine ⟨le_rfl, fun _ => ⟨rfl, hstate, info, hinfo, hgo.1, ?_⟩⟩
    rcases hgo.2 with hplayer | hwarned
    · exact .inl (by simpa using hplayer)
    · exact .inr hwarned
  split at h
  · cases h
    exact ⟨Nat.zero_le 1, by simp⟩
  split at h
  · cases h
    exact ⟨Nat.zero_le 1, by simp⟩
  · cases h
    exact ⟨Nat.zero_le 1, by simp⟩

theorem Demo.doSyncWatcher_ready {demo : Demo} {p p' : DpPlayer} {go : ℕ} {sent : List Sent}
    (h : demo.doSyncWatcher p = some (go, p', sent)) : go ≤ 1 ∧ (go = 1 → p' = p ∧ p.Ready) := by
  unfold Demo.doSyncWatcher at h
  have hzero : go = 0 → go ≤ 1 ∧ (go = 1 → p' = p ∧ p.Ready) := by
    intro hgo
    rw [hgo]
    exact ⟨Nat.zero_le 1, by simp⟩
  split at h
  · obtain ⟨n, -, h⟩ := Option.bind_eq_some_iff.mp h
    cases h
    exact hzero rfl
  · obtain ⟨x, -, h⟩ := Option.map_eq_some_iff.mp h
    cases h
    exact hzero rfl
  · obtain ⟨n, -, h⟩ := Option.bind_eq_some_iff.mp h
    obtain ⟨k, -, h⟩ := Option.bind_eq_some_iff.mp h
    dsimp only at h
    split at h
    · cases h
      exact hzero rfl
    split at h
    · cases h
      exact hzero rfl
    · cases h
      exact hzero rfl
  · cases h
    exact hzero rfl
  · obtain ⟨x, -, h⟩ := Option.map_eq_some_iff.mp h
    cases h
    exact hzero rfl
  · obtain ⟨n, -, h⟩ := Option.bind_eq_some_iff.mp h
    dsimp only at h
    split at h
    · cases h
      exact hzero rfl
    split at h
    · cases h
      exact hzero rfl
    · cases h
      exact hzero rfl
  · cases h
    exact hzero rfl
  · rename_i hstate
    exact Demo.waitGo_ready hstate h
  · cases h
    exact hzero rfl
  · cases h
    exact hzero rfl

namespace TaReplayer

/-! ### The launch -/

theorem syncWatchers_ready {demo : Demo} {players players' : List (ℕ × DpPlayer)} {goCount : ℕ} {sent : List Sent}
    (h : syncWatchers demo players = some (goCount, players', sent)) :
    players'.map (·.1) = players.map (·.1) ∧ goCount ≤ players'.length ∧
      (goCount = players'.length → ∀ x ∈ players', x.2.Ready) := by
  induction players generalizing goCount players' sent with
  | nil =>
    cases h
    exact ⟨rfl, le_rfl, fun _ _ hx => absurd hx List.not_mem_nil⟩
  | cons x players ih =>
    obtain ⟨⟨go, p, one⟩, hone, h⟩ := Option.bind_eq_some_iff.mp h
    obtain ⟨⟨count, rest, more⟩, hrest, h⟩ := Option.bind_eq_some_iff.mp h
    cases h
    obtain ⟨hle, hready⟩ := Demo.doSyncWatcher_ready hone
    obtain ⟨hkeys, hcount, hall⟩ := ih hrest
    refine ⟨congrArg (x.1 :: ·) hkeys, ?_, ?_⟩
    · rw [List.length_cons]
      omega
    · intro heq y hy
      rw [List.length_cons] at heq
      rcases List.mem_cons.mp hy with rfl | hy
      · obtain ⟨rfl, hp⟩ := hready (by omega)
        exact hp
      · exact hall (by omega) y hy

/-- There are guests, and all of them are ready. -/
structure AllReady (r : TaReplayer) : Prop where
  guests : r.dpPlayers.size ≠ 0
  ready : ∀ (dpid : ℕ) (p : DpPlayer), r.dpPlayers[dpid]? = some p → p.Ready

theorem distinct_of_keys {m : Table DpPlayer} {l : List (ℕ × DpPlayer)} (h : l.map (·.1) = m.toList.map (·.1)) :
    l.Pairwise fun a b => ¬ compare a.1 b.1 = .eq := by
  have hlt : (m.toList.map (·.1)).Pairwise (· < ·) := List.pairwise_map.mpr m.toList_pairwise
  rw [← h] at hlt
  refine (List.pairwise_map.mp hlt).imp fun hab => ?_
  rw [compare_eq_iff_eq]
  exact hab.ne

theorem mem_of_ofList {l : List (ℕ × DpPlayer)} {k : ℕ} {p : DpPlayer}
    (hl : l.Pairwise fun a b => ¬ compare a.1 b.1 = .eq) (h : (Std.ExtTreeMap.ofList l : Table DpPlayer)[k]? = some p) :
    (k, p) ∈ l := by
  by_cases hk : k ∈ l.map (·.1)
  · obtain ⟨⟨k', q⟩, hq, rfl⟩ := List.mem_map.mp hk
    have hget : (Std.ExtTreeMap.ofList l : Table DpPlayer)[k']? = some q :=
      Std.ExtTreeMap.getElem?_ofList_of_mem (compare_eq_iff_eq.mpr rfl) hl hq
    rw [hget] at h
    obtain rfl := Option.some.inj h
    exact hq
  · have hnone : (Std.ExtTreeMap.ofList l : Table DpPlayer)[k]? = none :=
      Std.ExtTreeMap.getElem?_ofList_of_contains_eq_false (by simpa using hk)
    rw [hnone] at h
    cases h

variable {r r' : TaReplayer} {x : TaReplayer × List Output}

theorem callWatchers_ready {host goCount : ℕ} {uninitialised : Byte}
    (h : r.callWatchers host uninitialised = some (goCount, x)) (hsize : x.1.dpPlayers.size ≠ 0)
    (hgo : goCount = x.1.dpPlayers.size) : AllReady x.1 := by
  unfold callWatchers at h
  split at h
  · obtain ⟨⟨r1, sent1⟩, -, h⟩ := Option.bind_eq_some_iff.mp h
    obtain ⟨⟨go, players, sent⟩, hsync, h⟩ := Option.bind_eq_some_iff.mp h
    cases h
    obtain ⟨hkeys, -, hall⟩ := syncWatchers_ready hsync
    have hdistinct := distinct_of_keys hkeys
    rw [Std.ExtTreeMap.size_ofList hdistinct] at hgo
    exact ⟨hsize, fun dpid p hp => hall hgo (dpid, p) (mem_of_ofList hdistinct hp)⟩
  · cases h
    exact absurd hgo.symm hsize

theorem doLobby_ready {t : Tick} (h : r.doLobby t = some (true, x)) : AllReady x.1 := by
  obtain ⟨host, -, h⟩ := Option.bind_eq_some_iff.mp h
  obtain ⟨⟨returned, r1, heard⟩, -, h⟩ := Option.bind_eq_some_iff.mp h
  dsimp only at h
  split at h
  · cases h
  · obtain ⟨⟨goCount, r2, called⟩, hcall, h⟩ := Option.bind_eq_some_iff.mp h
    dsimp only at h
    split at h
    · rename_i hgo
      obtain ⟨statuses, -, h⟩ := Option.bind_eq_some_iff.mp h
      cases h
      have hready := callWatchers_ready hcall hgo.1 hgo.2
      exact hready
    · cases h

/-! ### After the launch -/

def AllPlaying (r : TaReplayer) : Prop := ∀ (dpid : ℕ) (p : DpPlayer), r.dpPlayers[dpid]? = some p → p.state = .PLAYING

/-- No guest is lost, and who plays goes on playing. -/
structure Keeps (r r' : TaReplayer) : Prop where
  state : r'.state = r.state
  guests : ∀ dpid, dpid ∈ r.dpPlayers → dpid ∈ r'.dpPlayers
  playing : AllPlaying r → AllPlaying r'

theorem Keeps.same (h : r'.dpPlayers = r.dpPlayers) (hstate : r'.state = r.state) : Keeps r r' := by
  refine ⟨hstate, fun dpid hd => ?_, fun hall dpid p hp => ?_⟩
  · rw [h]
    exact hd
  · rw [h] at hp
    exact hall dpid p hp

theorem Keeps.trans {r1 r2 r3 : TaReplayer} (h : Keeps r1 r2) (h' : Keeps r2 r3) : Keeps r1 r3 :=
  ⟨h'.state.trans h.state, fun dpid hd => h'.guests dpid (h.guests dpid hd), fun hall => h'.playing (h.playing hall)⟩

theorem Keeps.of_same {r1 r2 r3 : TaReplayer} (h : Keeps r2 r3) (hplayers : r2.dpPlayers = r1.dpPlayers)
    (hstate : r2.state = r1.state) : Keeps r1 r3 := Keeps.trans (Keeps.same hplayers hstate) h

theorem keeps_setDpPlayer {p : DpPlayer} (hp : AllPlaying r → p.state = .PLAYING) : Keeps r (r.setDpPlayer p) := by
  refine ⟨rfl, fun dpid hd => Std.ExtTreeMap.mem_insert.mpr (.inr hd), fun hall dpid q hq => ?_⟩
  rw [setDpPlayer, Table.getElem?_insert] at hq
  split at hq
  · obtain rfl := Option.some.inj hq
    exact hp hall
  · exact hall dpid q hq

theorem keeps_exec {α : Type} {f : TaReplayer → α → Option (TaReplayer × List Output)}
    (hf : ∀ r a x, f r a = some x → Keeps r x.1) {as : List α} (h : exec f r as = some x) : Keeps r x.1 := by
  induction as generalizing r x with
  | nil =>
    obtain rfl := Option.some.inj h
    exact .same rfl rfl
  | cons a as ih =>
    obtain ⟨r', outputs⟩ := x
    obtain ⟨r1, o, o', hstep, hrest, rfl⟩ := exec_cons_some h
    have hfirst := hf r a _ hstep
    have hlater := ih hrest
    exact hfirst.trans hlater

theorem keeps_onSubpaks {f : TaReplayer → Bytes → Option (TaReplayer × List Output)}
    (hf : ∀ r s x, f r s = some x → Keeps r x.1) {payload : Bytes} (h : onSubpaks f r payload = some x) :
    Keeps r x.1 := by
  obtain ⟨decoded, -, h⟩ := Option.bind_eq_some_iff.mp h
  cases decoded with
  | none =>
    obtain rfl := Option.some.inj h
    exact .same rfl rfl
  | some subpaks =>
    refine keeps_exec (fun r s x hs => ?_) h
    obtain ⟨expectedSize, -, hs⟩ := Option.bind_eq_some_iff.mp hs
    split at hs
    · obtain rfl := Option.some.inj hs
      exact .same rfl rfl
    · exact hf r s x hs

theorem keeps_onLoadingTaMessage {m : Datagram} (h : r.onLoadingTaMessage m = some x) : Keeps r x.1 := by
  unfold onLoadingTaMessage at h
  split at h
  · obtain rfl := Option.some.inj h
    exact .same rfl rfl
  refine keeps_onSubpaks (fun r s x hs => ?_) h
  unfold loadingSubpak at hs
  split at hs
  · split at hs
    · obtain rfl := Option.some.inj hs
      exact keeps_setDpPlayer fun _ => rfl
    · obtain rfl := Option.some.inj hs
      exact .same rfl rfl
  · obtain rfl := Option.some.inj hs
    exact .same rfl rfl

theorem keeps_playingSubpak {source other : ℕ} {s : Bytes} (h : playingSubpak source other r s = some x) :
    Keeps r x.1 := by
  unfold playingSubpak at h
  simp only [] at h
  split at h
  · split at h
    · obtain rfl := Option.some.inj h
      exact .same rfl rfl
    split at h
    · obtain rfl := Option.some.inj h
      exact .same rfl rfl
    · obtain rfl := Option.some.inj h
      exact .same rfl rfl
  split at h
  · split at h
    · obtain rfl := Option.some.inj h
      exact .same rfl rfl
    · obtain rfl := Option.some.inj h
      exact .same rfl rfl
  split at h
  · obtain ⟨ticks, -, h⟩ := Option.bind_eq_some_iff.mp h
    split at h
    · obtain rfl := Option.some.inj h
      exact .same rfl rfl
    · rename_i watcher hwatcher
      obtain ⟨sonar, -, h⟩ := Option.bind_eq_some_iff.mp h
      obtain rfl := Option.some.inj h
      exact keeps_setDpPlayer fun hall => hall source watcher hwatcher
  · obtain rfl := Option.some.inj h
    exact .same rfl rfl

theorem keeps_onPlayingTaMessage {m : Datagram} (h : r.onPlayingTaMessage m = some x) : Keeps r x.1 := by
  obtain ⟨host, -, h⟩ := Option.bind_eq_some_iff.mp h
  split at h
  · exact keeps_onSubpaks (fun _ _ _ hs => keeps_playingSubpak hs) h
  · obtain rfl := Option.some.inj h
    exact .same rfl rfl

theorem handle_dpPlayers {c : Callback} (h : handle r c = some r') : r'.dpPlayers = r.dpPlayers := by
  cases c with
  | playerStatusMessage msg dplayid n ofTotal =>
    simp only [handle] at h
    split at h
    · obtain rfl := Option.some.inj h
      rfl
    · cases h
  | unitData unitData =>
    obtain ⟨subpakLen, -, h⟩ := Option.bind_eq_some_iff.mp h
    obtain ⟨units, -, h⟩ := Option.bind_eq_some_iff.mp h
    obtain rfl := Option.some.inj h
    rfl
  | _ =>
    obtain rfl := Option.some.inj h
    rfl

theorem foldlM_handle_dpPlayers {cs : List Callback} (h : cs.foldlM handle r = some r') :
    r'.dpPlayers = r.dpPlayers := by
  induction cs generalizing r with
  | nil =>
    obtain rfl := Option.some.inj h
    rfl
  | cons c cs ih =>
    obtain ⟨r1, hc, hcs⟩ := Option.bind_eq_some_iff.mp h
    exact (ih hcs).trans (handle_dpPlayers hc)

theorem keeps_parse (h : r.parse = some r') : Keeps r r' := by
  unfold parse at h
  split at h
  · have hfollowed := Keeps.same (foldlM_handle_dpPlayers h) (foldlM_handle_pending h).2
    exact hfollowed.of_same rfl rfl
  · cases h

theorem keeps_preload (h : r.preload = some r') : Keeps r r' := by
  unfold preload at h
  split at h
  · exact keeps_parse h
  · obtain rfl := Option.some.inj h
    exact .same rfl rfl

theorem keeps_playLoop {fuel : ℕ} {received : List (List Datagram)} (h : playLoop fuel received r = some x) :
    Keeps r x.1 := by
  induction fuel generalizing received r x with
  | zero => cases h
  | succ fuel ih =>
    rw [playLoop] at h
    obtain ⟨⟨r1, heard⟩, hheard, h⟩ := Option.bind_eq_some_iff.mp h
    obtain ⟨r2, hload, h⟩ := Option.bind_eq_some_iff.mp h
    have hkept : Keeps r r2 :=
      (keeps_exec (fun _ _ _ hm => keeps_onPlayingTaMessage hm) hheard).trans (keeps_preload hload)
    dsimp only at h
    split at h
    · obtain rfl := Option.some.inj h
      exact hkept
    split at h
    · obtain rfl := Option.some.inj h
      exact hkept
    · obtain ⟨⟨playback, log, played⟩, -, h⟩ := Option.bind_eq_some_iff.mp h
      obtain ⟨⟨r3, more⟩, hrest, h⟩ := Option.bind_eq_some_iff.mp h
      obtain rfl := Option.some.inj h
      have hlater := ih hrest
      exact hkept.trans (hlater.of_same rfl rfl)

theorem keeps_doPlay {t : Tick} (h : r.doPlay t = some x) : Keeps r x.1 := by
  obtain ⟨r1, hload, hloop⟩ := Option.bind_eq_some_iff.mp h
  have htarget : Keeps r1 (r1.setTarget t.advance) := by
    unfold setTarget
    split
    · split <;> exact .same rfl rfl
    · exact .same rfl rfl
  exact (keeps_preload hload).trans (htarget.trans (keeps_playLoop hloop))

theorem keeps_doLoad {t : Tick} {loaded : Bool} (h : r.doLoad t = some (loaded, x)) :
    Keeps r x.1 ∧ (loaded = true → AllPlaying x.1) := by
  obtain ⟨⟨r1, heard⟩, hr1, h⟩ := Option.bind_eq_some_iff.mp h
  obtain ⟨host, -, h⟩ := Option.bind_eq_some_iff.mp h
  have hkeeps := keeps_exec (fun _ _ _ hm => keeps_onLoadingTaMessage hm) hr1
  cases h
  refine ⟨hkeeps, fun hloaded dpid p hp => ?_⟩
  have hall := (Bool.and_eq_true_iff.mp hloaded).2
  exact of_decide_eq_true (List.all_eq_true.mp hall (dpid, p) (Table.mem_toList.mpr hp))

/-! ### Runs -/

section runs

variable {n : ℤ} {nochat : Bool} {dpIds : List ℕ} {es : List Event} {t : Tick}

/-- What the tick of the launch, which is in the run, has come to. -/
structure LaunchedAs (n : ℤ) (nochat : Bool) (dpIds : List ℕ) (es : List Event) (r1 : TaReplayer) : Prop where
  moment : ∃ before t r0 outputs more, before ++ [.timerEvent t] <+: es ∧
    exec step (new n nochat dpIds) before = some (r0, outputs) ∧ r0.state = .LOBBY ∧
    r0.timerEvent t = some (r1, more) ∧ r1.state = .LAUNCH
  ready : AllReady r1

def UnderWay (state : ReplayState) : Prop := state = .LAUNCH ∨ state = .LOAD ∨ state = .PLAY

structure StartedSince (r1 r : TaReplayer) : Prop where
  guests : ∀ dpid, dpid ∈ r1.dpPlayers → dpid ∈ r.dpPlayers
  playing : r.state = .PLAY → AllPlaying r

theorem LaunchedAs.mono {es' : List Event} {r1 : TaReplayer} (h : LaunchedAs n nochat dpIds es r1) :
    LaunchedAs n nochat dpIds (es ++ es') r1 := by
  obtain ⟨before, t, r0, outputs, more, hpre, hrest⟩ := h.moment
  exact ⟨⟨before, t, r0, outputs, more, hpre.trans (List.prefix_append _ _), hrest⟩, h.ready⟩

theorem StartedSince.keeps {r1 : TaReplayer} (h : StartedSince r1 r) (hk : Keeps r r') : StartedSince r1 r' := by
  refine ⟨fun dpid hd => hk.guests dpid (h.guests dpid hd), fun hplay => hk.playing (h.playing ?_)⟩
  rw [← hk.state]
  exact hplay

theorem keeps_beginTick (h : r.beginTick = some r') : Keeps r r' := by
  simp only [beginTick] at h
  split at h
  · have hparsed := keeps_parse h
    exact hparsed.of_same rfl rfl
  · obtain rfl := Option.some.inj h
    exact .same rfl rfl

theorem startedSince_doLoadTick {r1 : TaReplayer} (h : r.doLoadTick t = some x)
    (hguests : ∀ dpid, dpid ∈ r1.dpPlayers → dpid ∈ r.dpPlayers) (hstate : r.state = .LOAD) : UnderWay x.1.state ∧ StartedSince r1 x.1 := by
  obtain ⟨⟨loaded, r2, outputs⟩, hload, h⟩ := Option.bind_eq_some_iff.mp h
  obtain ⟨hkeeps, hplaying⟩ := keeps_doLoad hload
  have hkept : ∀ dpid, dpid ∈ r1.dpPlayers → dpid ∈ r2.dpPlayers := fun dpid hd => hkeeps.guests dpid (hguests dpid hd)
  have hload2 : r2.state = .LOAD := hkeeps.state.trans hstate
  cases h
  cases loaded with
  | true => exact ⟨.inr (.inr rfl), hkept, fun _ => hplaying rfl⟩
  | false =>
    refine ⟨.inr (.inl hload2), hkept, fun hplay => ?_⟩
    simp [hload2] at hplay

theorem doLaunch_guests (h : r.doLaunch = some x) : ∀ dpid, dpid ∈ r.dpPlayers → dpid ∈ x.1.dpPlayers := by
  obtain ⟨host, -, h⟩ := Option.bind_eq_some_iff.mp h
  cases h
  exact fun dpid hd => Std.ExtTreeMap.mem_map.mpr hd

/-- Before the launch a tick only makes the replay go on by launching it. -/
theorem tick_before (hstate : ¬ UnderWay r.state) (h : r.timerEvent t = some x) (hnow : UnderWay x.1.state) :
    r.state = .LOBBY ∧ x.1.state = .LAUNCH ∧ AllReady x.1 := by
  obtain ⟨r1, hbegin, h⟩ := Option.bind_eq_some_iff.mp h
  have hsame := (keeps_beginTick hbegin).state
  unfold doState at h
  split at h
  · unfold loadingTick at h
    rename_i hloading
    split at h
    · obtain ⟨⟨r2, names⟩, -, h⟩ := Option.bind_eq_some_iff.mp h
      cases h
      rcases hnow with hn | hn | hn <;> cases hn
    · cases h
      rw [hloading] at hnow
      rcases hnow with hn | hn | hn <;> cases hn
  · rename_i hlobby
    obtain ⟨⟨launched, r2, heard⟩, hdo, h⟩ := Option.bind_eq_some_iff.mp h
    cases h
    cases launched with
    | true =>
      have hready := doLobby_ready hdo
      exact ⟨hsame.symm.trans hlobby, rfl, hready.guests, hready.ready⟩
    | false =>
      have hstay : r2.state = .LOBBY := (quiet_doLobby hdo).state.trans hlobby
      simp [UnderWay, hstay] at hnow
  · rename_i hl
    exact absurd (.inl (hsame.symm.trans hl)) hstate
  · rename_i hl
    exact absurd (.inr (.inl (hsame.symm.trans hl))) hstate
  · rename_i hl
    exact absurd (.inr (.inr (hsame.symm.trans hl))) hstate
  · rename_i hdone
    cases h
    rw [hdone] at hnow
    rcases hnow with hn | hn | hn <;> cases hn

/-- After it no guest is lost, and the play begins when all of them play. -/
theorem tick_after {r1 : TaReplayer} (hstate : UnderWay r.state) (hs : StartedSince r1 r)
    (h : r.timerEvent t = some x) : UnderWay x.1.state ∧ StartedSince r1 x.1 := by
  obtain ⟨r2, hbegin, h⟩ := Option.bind_eq_some_iff.mp h
  have hkeeps := keeps_beginTick hbegin
  have hs2 := hs.keeps hkeeps
  rw [← hkeeps.state] at hstate
  unfold doState at h
  rcases hstate with hl | hl | hl
  · simp only [hl] at h
    obtain ⟨⟨r3, launched⟩, hlaunch, h⟩ := Option.bind_eq_some_iff.mp h
    obtain ⟨⟨r4, loaded⟩, hload, h⟩ := Option.bind_eq_some_iff.mp h
    have hguests : ∀ dpid, dpid ∈ r1.dpPlayers → dpid ∈ r3.dpPlayers := fun dpid hd =>
      doLaunch_guests hlaunch dpid (hs2.guests dpid hd)
    have hloaded := startedSince_doLoadTick hload hguests rfl
    cases h
    exact hloaded
  · simp only [hl] at h
    exact startedSince_doLoadTick h hs2.guests hl
  · simp only [hl] at h
    have hplay := keeps_doPlay h
    exact ⟨.inr (.inr (hplay.state.trans hl)), hs2.keeps hplay⟩

/-- Who is ready when the replay is launched is still there, and plays, when it plays. -/
theorem started_when_ready {outputs : List Output} (h : exec step (new n nochat dpIds) es = some (r, outputs))
    (hstate : UnderWay r.state) : ∃ r1, LaunchedAs n nochat dpIds es r1 ∧ StartedSince r1 r := by
  have hall := exec_invariant
    (P := fun es outputs r => exec step (new n nochat dpIds) es = some (r, outputs) ∧
      (UnderWay r.state → ∃ r1, LaunchedAs n nochat dpIds es r1 ∧ StartedSince r1 r)) ?_ es [] []
    ⟨rfl, fun hnew => by rcases hnew with hn | hn | hn <;> cases hn⟩ h
  · exact hall.2 hstate
  intro es outputs r e r' more hp hs
  refine ⟨exec_concat hp.1 hs, fun hnow => ?_⟩
  cases e with
  | grow bytes =>
    cases hs
    obtain ⟨r1, hlaunched, hsince⟩ := hp.2 hnow
    exact ⟨r1, hlaunched.mono, hsince.guests, hsince.playing⟩
  | timerEvent t =>
    by_cases hbefore : UnderWay r.state
    · obtain ⟨r1, hlaunched, hsince⟩ := hp.2 hbefore
      exact ⟨r1, hlaunched.mono, (tick_after hbefore hsince hs).2⟩
    · obtain ⟨hlobby, hlaunch, hready⟩ := tick_before hbefore hs hnow
      refine ⟨r', ⟨⟨es, t, r, outputs, more, List.prefix_rfl, hp.1, hlobby, hs, hlaunch⟩, hready⟩, fun _ hd => hd, ?_⟩
      intro hplay
      rw [hlaunch] at hplay
      cases hplay

theorem started_when_ready_solo : ∃ r outputs r1, exec step (new 0 false [8, 7]) soloEvents = some (r, outputs) ∧
    r.state = .PLAY ∧ LaunchedAs 0 false [8, 7] soloEvents r1 ∧ StartedSince r1 r := by
  obtain ⟨r, outputs, r', more, hrun, -, hstate, -⟩ := exists_solo
  obtain ⟨r1, hlaunched, hsince⟩ := started_when_ready hrun (.inr (.inr hstate))
  exact ⟨r, outputs, r1, hrun, hstate, hlaunched, hsince⟩

end runs

end TaReplayer

end Gpgnet4TA.Replayer
