import Gpgnet4TA.Replayer.TaReplayer
import Gpgnet4TA.Tapacket.DemoFollowing
import Gpgnet4TA.Tapacket.WireCodec

/-!
# What a replay feeds to the game

However the demo grows, whatever those who watch do and whatever the clock says, the packets that have
been fed are a beginning of the packets of the finished demo.
-/

namespace Gpgnet4TA.Replayer
open Gpgnet4TA.Lib Gpgnet4TA.Tapacket Resumable

namespace TaReplayer

def played (outputs : List Output) : List PlayOutput := outputs.filterMap fun
  | .play output => some output
  | _ => none

def packetsOf (handled : List Callback) : List Playback.GamePacket := handled.filterMap fun
  | .packet packet unpaked _ => some ⟨packet.sender, unpaked⟩
  | _ => none

/-- The bytes that the demo has grown by. -/
def grown (es : List Event) : Bytes := es.flatMap fun
  | .grow bytes => bytes
  | .timerEvent _ => []

/-- The state in which the play begins, from what has been read of the demo. -/
def start (nochat : Bool) (dpIdsPrealloc : List ℕ) (handled : List Callback) : Option Playback :=
  (handled.foldlM handle (new 0 nochat dpIdsPrealloc)).bind fun r =>
    r.onCompletedLoadingDemoPlayers.map fun x => x.1.playback

theorem played_append (outputs outputs' : List Output) : played (outputs ++ outputs') = played outputs ++ played outputs' :=
  List.filterMap_append

theorem packetsOf_append (cs cs' : List Callback) : packetsOf (cs ++ cs') = packetsOf cs ++ packetsOf cs' :=
  List.filterMap_append

theorem played_play (outputs : List PlayOutput) : played (outputs.map .play) = outputs := by
  induction outputs with
  | nil => rfl
  | cons output outputs ih => exact congrArg (output :: ·) ih

/-! ### What leaves the play alone -/

/-- Nothing is read, played or taken from the queue. -/
structure Quiet (r : TaReplayer) (x : TaReplayer × List Output) : Prop where
  follower : x.1.follower = r.follower
  playback : x.1.playback = r.playback
  pending : x.1.pendingGamePackets = r.pendingGamePackets
  state : x.1.state = r.state
  silent : ∀ output, .play output ∉ x.2

section quiet

variable {r r' : TaReplayer} {outputs outputs' : List Output} {x : TaReplayer × List Output}

theorem played_of_silent (h : ∀ output, .play output ∉ outputs) : played outputs = [] := by
  rw [played, List.filterMap_eq_nil_iff]
  intro o ho
  cases o with
  | play output => exact absurd ho (h output)
  | _ => rfl

theorem Quiet.refl (r : TaReplayer) : Quiet r (r, []) := ⟨rfl, rfl, rfl, rfl, fun _ => List.not_mem_nil⟩

theorem Quiet.trans (h : Quiet r (r', outputs)) (h' : Quiet r' x) : Quiet r (x.1, outputs ++ x.2) := by
  refine ⟨h'.follower.trans h.follower, h'.playback.trans h.playback, h'.pending.trans h.pending,
    h'.state.trans h.state, fun output hm => ?_⟩
  rcases List.mem_append.mp hm with hm | hm
  · exact h.silent output hm
  · exact h'.silent output hm

theorem quiet_exec {α : Type} {f : TaReplayer → α → Option (TaReplayer × List Output)}
    (hf : ∀ r a x, f r a = some x → Quiet r x) {as : List α} (h : exec f r as = some x) : Quiet r x := by
  induction as generalizing r x with
  | nil =>
    obtain rfl := Option.some.inj h
    exact Quiet.refl r
  | cons a as ih =>
    obtain ⟨r', outputs⟩ := x
    obtain ⟨r1, o, o', hstep, hrest, rfl⟩ := exec_cons_some h
    exact (hf r a _ hstep).trans (ih hrest)

theorem quiet_onSubpaks {f : TaReplayer → Bytes → Option (TaReplayer × List Output)}
    (hf : ∀ r s x, f r s = some x → Quiet r x) {payload : Bytes} (h : onSubpaks f r payload = some x) : Quiet r x := by
  obtain ⟨decoded, -, h⟩ := Option.bind_eq_some_iff.mp h
  cases decoded with
  | none =>
    obtain rfl := Option.some.inj h
    exact Quiet.refl r
  | some subpaks =>
    refine quiet_exec (fun r s x hs => ?_) h
    obtain ⟨expectedSize, -, hs⟩ := Option.bind_eq_some_iff.mp hs
    split at hs
    · obtain rfl := Option.some.inj hs
      exact Quiet.refl r
    · exact hf r s x hs

theorem quiet_lobbyUnitData {watcher : DpPlayer} {u : TUnitData} (h : r.lobbyUnitData watcher u = some r') :
    Quiet r (r', []) := by
  unfold lobbyUnitData at h
  split at h
  · obtain rfl := Option.some.inj h
    exact Quiet.refl r
  split at h
  · split at h
    · obtain rfl := Option.some.inj h
      exact Quiet.refl r
    split at h
    · obtain ⟨n, -, rfl⟩ := Option.map_eq_some_iff.mp h
      exact ⟨rfl, rfl, rfl, rfl, by simp⟩
    · obtain ⟨n, -, rfl⟩ := Option.map_eq_some_iff.mp h
      exact ⟨rfl, rfl, rfl, rfl, by simp⟩
  split at h
  · obtain rfl := Option.some.inj h
    exact ⟨rfl, rfl, rfl, rfl, by simp⟩
  · obtain rfl := Option.some.inj h
    exact Quiet.refl r

theorem quiet_lobbySubpak {source other : ℕ} {s : Bytes} (h : lobbySubpak source other r s = some x) : Quiet r x := by
  unfold lobbySubpak at h
  simp only [] at h
  split at h
  · obtain ⟨ping, -, h⟩ := Option.bind_eq_some_iff.mp h
    obtain rfl := Option.some.inj h
    exact ⟨rfl, rfl, rfl, rfl, by simp⟩
  split at h
  · split at h
    · obtain rfl := Option.some.inj h
      exact Quiet.refl r
    · obtain ⟨u, -, h⟩ := Option.bind_eq_some_iff.mp h
      obtain ⟨r1, hr1, h⟩ := Option.bind_eq_some_iff.mp h
      obtain rfl := Option.some.inj h
      exact quiet_lobbyUnitData hr1
  split at h
  · split at h
    · obtain rfl := Option.some.inj h
      exact Quiet.refl r
    split at h
    · obtain rfl := Option.some.inj h
      exact Quiet.refl r
    · obtain rfl := Option.some.inj h
      exact ⟨rfl, rfl, rfl, rfl, by simp⟩
  · obtain rfl := Option.some.inj h
    exact Quiet.refl r

theorem quiet_onLobbySystemMessage {payload : Bytes} (h : r.onLobbySystemMessage payload = some r') :
    Quiet r (r', []) := by
  obtain ⟨dwType, -, h⟩ := Option.bind_eq_some_iff.mp h
  split at h
  · obtain ⟨dpId, -, h⟩ := Option.bind_eq_some_iff.mp h
    obtain rfl := Option.some.inj h
    split
    · exact Quiet.refl r
    · exact ⟨rfl, rfl, rfl, rfl, by simp⟩
  split at h
  · obtain ⟨dpId, -, h⟩ := Option.bind_eq_some_iff.mp h
    obtain rfl := Option.some.inj h
    split
    · exact Quiet.refl r
    · exact ⟨rfl, rfl, rfl, rfl, by simp⟩
  · obtain rfl := Option.some.inj h
    exact Quiet.refl r

theorem quiet_lobbyLoop {host : ℕ} {ms : List Datagram} {returned : Bool}
    (h : lobbyLoop host r ms = some (returned, x)) : Quiet r x := by
  induction ms generalizing r x returned with
  | nil =>
    cases h
    exact Quiet.refl r
  | cons m ms ih =>
    rw [lobbyLoop] at h
    split at h
    · obtain ⟨r1, hr1, hx⟩ := Option.map_eq_some_iff.mp h
      cases hx
      exact quiet_onLobbySystemMessage hr1
    · obtain ⟨⟨r1, heard⟩, hr1, h⟩ := Option.bind_eq_some_iff.mp h
      obtain ⟨⟨returned', r2, more⟩, hr2, h⟩ := Option.bind_eq_some_iff.mp h
      have hfirst : Quiet r (r1, heard) := quiet_onSubpaks (fun _ _ _ hs => quiet_lobbySubpak hs) hr1
      cases h
      exact hfirst.trans (ih hr2)

theorem silent_mapM {α : Type} {f : α → Option Output} {xs : List α} (hf : ∀ a output, f a ≠ some (.play output))
    (h : xs.mapM f = some outputs) : ∀ output, .play output ∉ outputs := by
  induction xs generalizing outputs with
  | nil =>
    cases h
    exact fun _ => List.not_mem_nil
  | cons a xs ih =>
    rw [List.mapM_cons] at h
    obtain ⟨o, ho, h⟩ := Option.bind_eq_some_iff.mp h
    obtain ⟨os, hos, h⟩ := Option.bind_eq_some_iff.mp h
    cases h
    intro output hm
    rcases List.mem_cons.mp hm with rfl | hm
    · exact hf a output ho
    · exact ih hos output hm

theorem silent_infos (fromId : DemoPlayer → ℕ) (edit : TPlayerInfo → TPlayerInfo)
    {ps : List (DemoPlayer × LobbyEntry)} {uninitialised : Byte}
    (h : ps.mapM (fun p => (playerInfo uninitialised p.1 p.2).map fun info =>
      Output.send (fromId p.1) 0 (edit info).asSubPacket) = some outputs) : ∀ output, .play output ∉ outputs := by
  refine silent_mapM (fun p output heq => ?_) h
  obtain ⟨info, -, hplay⟩ := Option.map_eq_some_iff.mp heq
  cases hplay

theorem quiet_sendPlayerInfos {uninitialised : Byte} (h : r.sendPlayerInfos uninitialised = some x) : Quiet r x := by
  obtain ⟨host, -, h⟩ := Option.bind_eq_some_iff.mp h
  obtain ⟨infos, hinfos, h⟩ := Option.bind_eq_some_iff.mp h
  have hsilent := silent_infos (fun _ => host.dpId)
    (fun info => ((info.setInternalVersion 0).setAllowWatch true).setCheat true) hinfos
  obtain rfl := Option.some.inj h
  refine ⟨rfl, rfl, rfl, rfl, fun output => ?_⟩
  simp [sendIdent3, hsilent output]

theorem quiet_callWatchers {host : ℕ} {uninitialised : Byte} {goCount : ℕ}
    (h : r.callWatchers host uninitialised = some (goCount, x)) : Quiet r x := by
  unfold callWatchers at h
  split at h
  · obtain ⟨⟨r1, outputs⟩, hr1, h⟩ := Option.bind_eq_some_iff.mp h
    obtain ⟨⟨go, players, sent⟩, -, h⟩ := Option.bind_eq_some_iff.mp h
    cases h
    have hsent : Quiet r1 ({ r1 with dpPlayers := .ofList players }, sent.map .sync) :=
      ⟨rfl, rfl, rfl, rfl, by simp⟩
    exact (quiet_sendPlayerInfos hr1).trans hsent
  · cases h
    exact Quiet.refl r

theorem quiet_doLobby {t : Tick} {launched : Bool} (h : r.doLobby t = some (launched, x)) : Quiet r x := by
  obtain ⟨host, -, h⟩ := Option.bind_eq_some_iff.mp h
  obtain ⟨⟨returned, r1, heard⟩, hr1, h⟩ := Option.bind_eq_some_iff.mp h
  have hheard := quiet_lobbyLoop hr1
  dsimp only at h
  split at h
  · cases h
    exact hheard
  · obtain ⟨⟨goCount, r2, called⟩, hr2, h⟩ := Option.bind_eq_some_iff.mp h
    have hcalled := hheard.trans (quiet_callWatchers hr2)
    dsimp only at h
    split at h
    · obtain ⟨statuses, hstatuses, h⟩ := Option.bind_eq_some_iff.mp h
      cases h
      have hsilent := silent_infos (·.dpId)
        (fun info => ((info.setAllowWatch true).setPermLos true).setCheat true) hstatuses
      have hlast : Quiet r2 (r2, statuses) := ⟨rfl, rfl, rfl, rfl, hsilent⟩
      exact hcalled.trans hlast
    · cases h
      exact hcalled

theorem quiet_doLaunch (h : r.doLaunch = some x) : Quiet r x := by
  obtain ⟨host, -, h⟩ := Option.bind_eq_some_iff.mp h
  obtain rfl := Option.some.inj h
  exact ⟨rfl, rfl, rfl, rfl, by simp [sendIdent3]⟩

theorem quiet_onLoadingTaMessage {m : Datagram} (h : r.onLoadingTaMessage m = some x) : Quiet r x := by
  unfold onLoadingTaMessage at h
  split at h
  · obtain rfl := Option.some.inj h
    exact Quiet.refl r
  refine quiet_onSubpaks (fun r s x hs => ?_) h
  unfold loadingSubpak at hs
  split at hs
  · split at hs
    · obtain rfl := Option.some.inj hs
      exact ⟨rfl, rfl, rfl, rfl, by simp⟩
    · obtain rfl := Option.some.inj hs
      exact Quiet.refl r
  · obtain rfl := Option.some.inj hs
    exact Quiet.refl r

theorem quiet_doLoad {t : Tick} {loaded : Bool} (h : r.doLoad t = some (loaded, x)) : Quiet r x := by
  obtain ⟨⟨r1, heard⟩, hr1, h⟩ := Option.bind_eq_some_iff.mp h
  obtain ⟨host, -, h⟩ := Option.bind_eq_some_iff.mp h
  have hheard := quiet_exec (fun _ _ _ hm => quiet_onLoadingTaMessage hm) hr1
  cases h
  refine ⟨hheard.follower, hheard.playback, hheard.pending, hheard.state, fun output hm => ?_⟩
  rcases List.mem_append.mp hm with hm | hm
  · split at hm
    · simp at hm
    · cases hm
  · split at hm
    · simp at hm
    · cases hm

theorem silent_sonarAt {source ticks : ℕ} {watcher : DpPlayer} (h : r.sonarAt source watcher ticks = some outputs) :
    ∀ output, .play output ∉ outputs := by
  unfold sonarAt at h
  split at h
  swap
  · obtain rfl := Option.some.inj h
    exact fun _ => List.not_mem_nil
  obtain ⟨benefactor, -, h⟩ := Option.bind_eq_some_iff.mp h
  obtain rfl := Option.some.inj h
  simp

theorem quiet_playingSubpak {source other : ℕ} {s : Bytes} (h : playingSubpak source other r s = some x) :
    Quiet r x := by
  unfold playingSubpak at h
  simp only [] at h
  split at h
  · split at h
    · obtain rfl := Option.some.inj h
      exact ⟨rfl, rfl, rfl, rfl, by simp⟩
    split at h
    · obtain rfl := Option.some.inj h
      exact ⟨rfl, rfl, rfl, rfl, by simp⟩
    · obtain rfl := Option.some.inj h
      exact Quiet.refl r
  split at h
  · split at h
    · obtain rfl := Option.some.inj h
      exact ⟨rfl, rfl, rfl, rfl, by simp⟩
    · obtain rfl := Option.some.inj h
      exact Quiet.refl r
  split at h
  · obtain ⟨ticks, -, h⟩ := Option.bind_eq_some_iff.mp h
    split at h
    · obtain rfl := Option.some.inj h
      exact Quiet.refl r
    · obtain ⟨sonar, hsonar, h⟩ := Option.bind_eq_some_iff.mp h
      obtain rfl := Option.some.inj h
      exact ⟨rfl, rfl, rfl, rfl, silent_sonarAt hsonar⟩
  · obtain rfl := Option.some.inj h
    exact Quiet.refl r

theorem quiet_onPlayingTaMessage {m : Datagram} (h : r.onPlayingTaMessage m = some x) : Quiet r x := by
  obtain ⟨host, -, h⟩ := Option.bind_eq_some_iff.mp h
  split at h
  · exact quiet_onSubpaks (fun _ _ _ hs => quiet_playingSubpak hs) h
  · obtain rfl := Option.some.inj h
    exact Quiet.refl r

end quiet

/-! ### What has been read -/

section reading

variable {r r' : TaReplayer} {nochat : Bool} {dpIds : List ℕ}

theorem handle_frame (r : TaReplayer) (follower : Follower) (wallClockTicks : ℕ) (c : Callback) :
    handle { r with follower, wallClockTicks } c = (handle r c).map fun r => { r with follower, wallClockTicks } := by
  cases c with
  | playerStatusMessage msg dplayid n ofTotal =>
    simp only [handle]
    split <;> rfl
  | unitData unitData =>
    simp only [handle, onUnitData]
    cases getExpectedSubPacketSizeN (unitData.unitData ++ [0]) (unsigned unitData.unitData.length) with
    | none => rfl
    | some subpakLen =>
      cases hunits : unitDataLoop subpakLen unitData.unitData.length unitData.unitData r.demoUnitInfo <;>
        simp [hunits]
  | _ => rfl

theorem foldlM_handle_frame (cs : List Callback) (r : TaReplayer) (follower : Follower) (wallClockTicks : ℕ) :
    cs.foldlM handle { r with follower, wallClockTicks } =
      (cs.foldlM handle r).map fun r => { r with follower, wallClockTicks } := by
  induction cs generalizing r with
  | nil => rfl
  | cons c cs ih =>
    simp only [List.foldlM_cons, handle_frame]
    cases handle r c with
    | none => rfl
    | some r1 => exact ih r1

theorem handle_pending {c : Callback} (h : handle r c = some r') :
    r'.pendingGamePackets = r.pendingGamePackets ++ packetsOf [c] ∧ r'.state = r.state := by
  cases c with
  | playerStatusMessage msg dplayid n ofTotal =>
    simp only [handle] at h
    split at h
    · obtain rfl := Option.some.inj h
      exact ⟨(List.append_nil _).symm, rfl⟩
    · cases h
  | unitData unitData =>
    obtain ⟨subpakLen, -, h⟩ := Option.bind_eq_some_iff.mp h
    obtain ⟨units, -, h⟩ := Option.bind_eq_some_iff.mp h
    obtain rfl := Option.some.inj h
    exact ⟨(List.append_nil _).symm, rfl⟩
  | packet packet unpaked n =>
    obtain rfl := Option.some.inj h
    exact ⟨rfl, rfl⟩
  | _ =>
    obtain rfl := Option.some.inj h
    exact ⟨(List.append_nil _).symm, rfl⟩

theorem foldlM_handle_pending {cs : List Callback} (h : cs.foldlM handle r = some r') :
    r'.pendingGamePackets = r.pendingGamePackets ++ packetsOf cs ∧ r'.state = r.state := by
  induction cs generalizing r with
  | nil =>
    obtain rfl := Option.some.inj h
    exact ⟨(List.append_nil _).symm, rfl⟩
  | cons c cs ih =>
    obtain ⟨r1, hc, hcs⟩ := Option.bind_eq_some_iff.mp h
    obtain ⟨hfirst, hstate⟩ := handle_pending hc
    obtain ⟨hrest, hstate'⟩ := ih hcs
    have hsplit : packetsOf (c :: cs) = packetsOf [c] ++ packetsOf cs := packetsOf_append [c] cs
    refine ⟨?_, hstate'.trans hstate⟩
    rw [hrest, hfirst, hsplit, List.append_assoc]

theorem foldlM_handle_packets {cs : List Callback} (h : ∀ c ∈ cs, DemoParser.Callback.isPacket c = true)
    (r : TaReplayer) :
    cs.foldlM handle r = some { r with pendingGamePackets := r.pendingGamePackets ++ packetsOf cs } := by
  induction cs generalizing r with
  | nil =>
    rw [show packetsOf [] = [] from rfl, List.append_nil]
    rfl
  | cons c cs ih =>
    have hc := h c List.mem_cons_self
    cases c with
    | packet packet unpaked n =>
      rw [List.foldlM_cons]
      show cs.foldlM handle _ = _
      rw [ih fun c hc => h c (List.mem_cons_of_mem _ hc), List.append_assoc]
      rfl
    | _ => cases hc

theorem completed_playback (r : TaReplayer) (packets : List Playback.GamePacket) (follower : Follower)
    (wallClockTicks : ℕ) :
    (onCompletedLoadingDemoPlayers { r with pendingGamePackets := packets, follower, wallClockTicks }).map
        (fun x => x.1.playback) =
      r.onCompletedLoadingDemoPlayers.map fun x => x.1.playback := by
  simp only [onCompletedLoadingDemoPlayers]
  split <;> rfl

theorem completed {x : TaReplayer × List Output} (h : r.onCompletedLoadingDemoPlayers = some x) :
    x.1.follower = r.follower ∧ x.1.pendingGamePackets = r.pendingGamePackets ∧ ∀ output, .play output ∉ x.2 := by
  unfold onCompletedLoadingDemoPlayers at h
  simp only [] at h
  split at h
  · cases h
  · obtain rfl := Option.some.inj h
    refine ⟨rfl, rfl, fun output hm => ?_⟩
    rcases List.mem_append.mp hm with hm | hm
    · obtain ⟨p, -, hp⟩ := List.mem_map.mp hm
      cases hp
    · obtain ⟨dpId, -, hp⟩ := List.mem_map.mp hm
      cases hp

/-- Later packets do not change where the play begins. -/
theorem start_append (cs : List Callback) {cs' : List Callback}
    (h : ∀ c ∈ cs', DemoParser.Callback.isPacket c = true) : start nochat dpIds (cs ++ cs') = start nochat dpIds cs := by
  rw [start, start, List.foldlM_append]
  cases cs.foldlM handle (new 0 nochat dpIds) with
  | none => rfl
  | some r =>
    show (cs'.foldlM handle r).bind _ = _
    rw [foldlM_handle_packets h]
    exact completed_playback r _ r.follower r.wallClockTicks

theorem length_packetsOf (cs : List Callback) : (packetsOf cs).length = cs.countP DemoParser.Callback.isPacket := by
  induction cs with
  | nil => rfl
  | cons c cs ih =>
    cases c with
    | packet packet unpaked n =>
      rw [List.countP_cons_of_pos rfl, ← ih]
      rfl
    | _ =>
      rw [List.countP_cons_of_neg (by simp [DemoParser.Callback.isPacket]), ← ih]
      rfl

end reading

/-! ### The parser behind its first packet -/

section parser
open DemoParser

variable {s s' : DemoParser}

/-- Whoever has handled a packet is at the packets. -/
def Ordered (s : DemoParser) : Prop := s.packets = 0 ∨ ∃ header k, AtPackets header k s

theorem Ordered.next {data : Bytes} (h : Ordered s) (hn : s.next data = .ok s') : Ordered s' := by
  rcases h with hzero | ⟨header, k, hat⟩
  · have hnone : ∀ c, Callback.isPacket c = false → (s.handle c).packets = 0 := by
      intro c hc
      rw [packets_handle, hzero, hc]
      rfl
    unfold DemoParser.next at hn
    split at hn
    · obtain ⟨header, rfl⟩ := onHeader_ok hn
      exact .inl (hnone (.header header) rfl)
    rename_i header hh
    split at hn
    · obtain ⟨eh, rfl⟩ := onExtraHeader_ok hn
      exact .inl hzero
    rename_i h1
    split at hn
    · obtain ⟨es, rfl⟩ := onExtraSector_ok hn
      exact .inl (hnone (.extraSector es _ _) rfl)
    rename_i h2
    split at hn
    · obtain ⟨p, rfl⟩ := onPlayer_ok hn
      exact .inl (hnone (.player p _ _) rfl)
    rename_i h3
    split at hn
    · obtain ⟨msg, dplayid, rfl⟩ := onPlayerStatusMessage_ok hn
      exact .inl (hnone (.playerStatusMessage msg dplayid _ _) rfl)
    rename_i h4
    split at hn
    · obtain ⟨ud, rfl⟩ := onUnitData_ok hn
      exact .inl (hnone (.unitData ud) rfl)
    · rename_i h5
      have hat : AtPackets header 0 s := ⟨⟨⟨⟨⟨hh, hzero⟩, h1, h2⟩, h3⟩, h4⟩, h5⟩
      exact .inr ⟨header, 1, hat.onPacket hn⟩
  · rw [hat.next] at hn
    exact .inr ⟨header, k + 1, hat.onPacket hn⟩

theorem Ordered.takeByte {b : Byte} (h : Ordered s) (hb : s.takeByte b = .ok s') : Ordered s' := by
  unfold DemoParser.takeByte at hb
  split at hb
  · cases hb
    exact h
  · rename_i data recordReader htake
    exact Ordered.next (s := { s with recordReader }) h hb
  · cases hb

theorem atPackets_of_feed {l : Bytes} (h : feed takeByte .new l = .ok s) (hpackets : 0 < s.packets) :
    ∃ header k, AtPackets header k s := by
  have hordered : Ordered s := feed_invariant (R := Ordered) (fun _ _ _ hs hb => hs.takeByte hb) h (.inl rfl)
  rcases hordered with hzero | hat
  · omega
  · exact hat

theorem stays_atPackets {l : Bytes} (h : ∃ header k, AtPackets header k s) (hl : feed takeByte s l = .ok s') :
    ∃ header k, AtPackets header k s' := by
  refine feed_invariant (R := fun s => ∃ header k, AtPackets header k s) (fun s b s' hs hb => ?_) hl h
  obtain ⟨header, k, hat⟩ := hs
  rcases hat.takeByte hb with ⟨hat', -⟩ | ⟨hat', -⟩
  · exact ⟨header, k, hat'⟩
  · exact ⟨header, k + 1, hat'⟩

end parser

/-! ### Feeding -/

section feeding
open Playback

theorem playPackets_concat {p p' p'' : Playback} {packets : List GamePacket} {packet : GamePacket}
    {log log' : List (Bytes × Bool)} {outs outs' : List PlayOutput} (h : playPackets p packets = some (p', log, outs))
    (hlast : p'.playPacket packet = some (p'', log', outs')) :
    playPackets p (packets ++ [packet]) = some (p'', log ++ log', outs ++ outs') := by
  induction packets generalizing p log outs with
  | nil =>
    cases h
    simp [playPackets, hlast]
  | cons first packets ih =>
    obtain ⟨⟨p1, log1, outs1⟩, hfirst, h⟩ := Option.bind_eq_some_iff.mp h
    obtain ⟨⟨p2, log2, outs2⟩, hrest, h⟩ := Option.bind_eq_some_iff.mp h
    cases h
    rw [List.cons_append, playPackets, hfirst]
    simp only [Option.bind_eq_bind, Option.bind_some]
    rw [ih hrest]
    simp only [Option.bind_some, Option.pure_def, List.append_assoc]

/-- After `got` bytes of the demo: `outs` is what the packets give that are no longer pending. -/
structure Feeding (nochat : Bool) (dpIds : List ℕ) (got : Bytes) (p : Playback) (r : TaReplayer)
    (outs : List PlayOutput) : Prop where
  follows : r.follower.Follows got
  reads : ∃ header k, DemoParser.AtPackets header k r.follower.parser
  started : start nochat dpIds r.follower.parser.handled = some p
  fed : ∃ packets log, packetsOf r.follower.parser.handled = packets ++ r.pendingGamePackets ∧
    playPackets p packets = some (r.playback, log, outs)

variable {nochat : Bool} {dpIds : List ℕ} {got : Bytes} {p : Playback} {r r' : TaReplayer} {outs : List PlayOutput}
  {outputs : List Output}

theorem Feeding.same (h : Feeding nochat dpIds got p r outs) (hf : r'.follower = r.follower)
    (hp : r'.playback = r.playback) (hq : r'.pendingGamePackets = r.pendingGamePackets) :
    Feeding nochat dpIds got p r' outs := by
  obtain ⟨hfollows, hreads, hstarted, hfed⟩ := h
  rw [← hf] at hfollows hreads hstarted hfed
  rw [← hp, ← hq] at hfed
  exact ⟨hfollows, hreads, hstarted, hfed⟩

theorem Feeding.quiet (h : Feeding nochat dpIds got p r outs) (hq : Quiet r (r', outputs)) :
    Feeding nochat dpIds got p r' (outs ++ played outputs) := by
  rw [played_of_silent hq.silent, List.append_nil]
  exact h.same hq.follower hq.playback hq.pending

/-- A call of `parse` goes on where the last one has stopped. -/
theorem parse_inv (hfollows : r.follower.Follows got) (h : r.parse = some r') :
    ∃ l cs, feed DemoParser.takeByte r.follower.parser l = .ok r'.follower.parser ∧
      r.follower.unread = l ++ r'.follower.unread ∧ cs.length ≤ l.length ∧
      r'.follower.parser.handled = r.follower.parser.handled ++ cs ∧
      cs.foldlM handle { r with follower := r'.follower } = some r' ∧ r'.follower.Follows got ∧
      (r'.follower.unread = [] ∨
        ∃ header, DemoParser.AtPackets header (r.follower.parser.packets + NUM_PAKS_TO_PRELOAD) r'.follower.parser) := by
  unfold parse at h
  rcases Follower.parse_cases hfollows.valid NUM_PAKS_TO_PRELOAD with
    ⟨x, f', l, hparse, hunread, hfeed, hend⟩ | ⟨e, e', l, l', hparse, -, -⟩
  · rw [hparse] at h
    obtain ⟨cs, hcs, hlen⟩ := DemoParser.feed_handled hfeed
    have hdrop : f'.parser.handled.drop r.follower.parser.handled.length = cs := by
      rw [hcs, List.drop_left]
    simp only [hdrop] at h
    have hframe := foldlM_handle_frame cs { r with follower := f' } f' r.wallClockTicks
    have hsame : r'.follower = f' := by
      rw [hframe] at h
      obtain ⟨r1, -, rfl⟩ := Option.map_eq_some_iff.mp h
      rfl
    obtain ⟨before, hgot, hbefore⟩ := hfollows
    have hfollows' : f'.Follows got :=
      ⟨before ++ l, by rw [hgot, hunread, List.append_assoc], by rw [feed_append_ok hbefore, hfeed]⟩
    rw [hsame]
    exact ⟨l, cs, hfeed, hunread, hlen, hcs, h, hfollows', hend.imp_right fun h => h.2⟩
  · rw [hparse] at h
    cases h

theorem Feeding.parse (h : Feeding nochat dpIds got p r outs) (hparse : r.parse = some r') :
    Feeding nochat dpIds got p r' outs ∧ r'.state = r.state ∧ (r'.pendingGamePackets = [] → r'.follower.unread = []) ∧
      r'.pendingGamePackets.length + r'.follower.unread.length ≤
        r.pendingGamePackets.length + r.follower.unread.length := by
  obtain ⟨l, cs, hfeed, hunread, hlen, hcs, hfold, hfollows, hend⟩ := parse_inv h.follows hparse
  obtain ⟨header, k, hat⟩ := h.reads
  obtain ⟨cs', hcs', hpackets⟩ := hat.feed hfeed
  obtain rfl : cs = cs' := List.append_cancel_left (hcs.symm.trans hcs')
  rw [foldlM_handle_packets hpackets] at hfold
  have hr' := (Option.some.inj hfold).symm
  have hpending : r'.pendingGamePackets = r.pendingGamePackets ++ packetsOf cs := by rw [hr']
  have hplayback : r'.playback = r.playback := by rw [hr']
  have hstate : r'.state = r.state := by rw [hr']
  obtain ⟨packets, log, hsplit, hplay⟩ := h.fed
  have hall : Feeding nochat dpIds got p r' outs := by
    refine ⟨hfollows, ?_, ?_, packets, log, ?_, ?_⟩
    · exact stays_atPackets ⟨header, k, hat⟩ hfeed
    · rw [hcs, start_append _ hpackets]
      exact h.started
    · rw [hcs, packetsOf_append, hsplit, hpending, List.append_assoc]
    · rw [hplayback]
      exact hplay
  refine ⟨hall, hstate, fun hnil => ?_, ?_⟩
  · refine hend.resolve_right fun hloaded => ?_
    obtain ⟨header', hat'⟩ := hloaded
    have hcount : r'.follower.parser.packets = r.follower.parser.packets + NUM_PAKS_TO_PRELOAD := hat'.1.1.1.1.2
    have hnone : packetsOf cs = [] := (List.append_eq_nil_iff.mp (hpending.symm.trans hnil)).2
    rw [DemoParser.packets, hcs, List.countP_append, ← length_packetsOf cs, hnone] at hcount
    simp [DemoParser.packets, NUM_PAKS_TO_PRELOAD] at hcount
  · rw [hpending, hunread, List.length_append, List.length_append, length_packetsOf,
      List.countP_eq_length.mpr hpackets]
    omega

theorem Feeding.preload (h : Feeding nochat dpIds got p r outs) (hload : r.preload = some r') :
    Feeding nochat dpIds got p r' outs ∧ r'.state = r.state ∧ (r'.pendingGamePackets = [] → r'.follower.unread = []) ∧
      r'.pendingGamePackets.length + r'.follower.unread.length ≤
        r.pendingGamePackets.length + r.follower.unread.length := by
  unfold TaReplayer.preload at hload
  split at hload
  · exact h.parse hload
  · rename_i hfull
    obtain rfl := Option.some.inj hload
    refine ⟨h, rfl, fun hnil => ?_, le_refl _⟩
    rw [hnil] at hfull
    exact absurd (by decide) hfull

theorem Feeding.pop (h : Feeding nochat dpIds got p r outs) {packet : GamePacket} {packets : List GamePacket}
    (hpending : r.pendingGamePackets = packet :: packets) {playback : Playback} {log : List (Bytes × Bool)}
    {more : List PlayOutput} (hplay : r.playback.playPacket packet = some (playback, log, more)) :
    Feeding nochat dpIds got p { r with playback, pendingGamePackets := packets } (outs ++ more) := by
  obtain ⟨fed, log', hsplit, hfed⟩ := h.fed
  refine ⟨h.follows, h.reads, h.started, fed ++ [packet], log' ++ log, ?_, playPackets_concat hfed hplay⟩
  rw [hsplit, hpending, List.append_assoc]
  rfl

/-- The loop stops where it may: it is paused, has reached its target, or nothing is left. -/
theorem Feeding.playLoop {fuel : ℕ} {received : List (List Datagram)} (h : Feeding nochat dpIds got p r outs)
    (hloop : playLoop fuel received r = some (r', outputs)) :
    Feeding nochat dpIds got p r' (outs ++ played outputs) ∧ r'.state = r.state ∧
      (r'.isPaused = true ∨ r'.reached = true ∨ r'.pendingGamePackets = [] ∧ r'.follower.unread = []) := by
  induction fuel generalizing received r outs outputs with
  | zero => cases hloop
  | succ fuel ih =>
    obtain ⟨⟨r1, heard⟩, hheard, hloop⟩ := Option.bind_eq_some_iff.mp hloop
    obtain ⟨r2, hload, hloop⟩ := Option.bind_eq_some_iff.mp hloop
    have hquiet : Quiet r (r1, heard) := quiet_exec (fun _ _ _ hm => quiet_onPlayingTaMessage hm) hheard
    obtain ⟨hfeeding, hstate, hnil, -⟩ := (h.quiet hquiet).preload hload
    have hsame : r2.state = r.state := hstate.trans hquiet.state
    split at hloop
    · rename_i hstop
      cases hloop
      exact ⟨hfeeding, hsame, hstop.imp_right .inl⟩
    · split at hloop
      · rename_i hempty
        cases hloop
        exact ⟨hfeeding, hsame, .inr (.inr ⟨hempty, hnil hempty⟩)⟩
      · rename_i packet packets hpending
        obtain ⟨⟨playback, log, more⟩, hplay, hloop⟩ := Option.bind_eq_some_iff.mp hloop
        obtain ⟨⟨r3, later⟩, hrest, hloop⟩ := Option.bind_eq_some_iff.mp hloop
        cases hloop
        obtain ⟨hall, hstate3, hstop⟩ := ih (hfeeding.pop hpending hplay) hrest
        refine ⟨?_, hstate3.trans hsame, hstop⟩
        rw [played_append, played_append, played_play, ← List.append_assoc, ← List.append_assoc]
        exact hall

theorem Feeding.doPlay {t : Tick} (h : Feeding nochat dpIds got p r outs) (hplay : r.doPlay t = some (r', outputs)) :
    Feeding nochat dpIds got p r' (outs ++ played outputs) ∧ r'.state = r.state ∧
      (r'.isPaused = true ∨ r'.reached = true ∨ r'.pendingGamePackets = [] ∧ r'.follower.unread = []) := by
  obtain ⟨r1, hload, hloop⟩ := Option.bind_eq_some_iff.mp hplay
  obtain ⟨hfeeding, hstate, -, -⟩ := h.preload hload
  have htarget : (r1.setTarget t.advance).follower = r1.follower ∧ (r1.setTarget t.advance).playback = r1.playback ∧
      (r1.setTarget t.advance).pendingGamePackets = r1.pendingGamePackets ∧
      (r1.setTarget t.advance).state = r1.state := by
    unfold setTarget
    split
    · split <;> exact ⟨rfl, rfl, rfl, rfl⟩
    · exact ⟨rfl, rfl, rfl, rfl⟩
  obtain ⟨hf, hp, hq, hs⟩ := htarget
  obtain ⟨hall, hstate', hstop⟩ := (hfeeding.same hf hp hq).playLoop hloop
  exact ⟨hall, hstate'.trans (hs.trans hstate), hstop⟩

/-- The fuel of `doPlay` does not end its loop. -/
theorem Feeding.playLoop_enough {fuel : ℕ} (h : Feeding nochat dpIds got p r outs)
    (hfuel : r.pendingGamePackets.length + r.follower.unread.length < fuel) (received : List (List Datagram))
    (extra : ℕ) : TaReplayer.playLoop (fuel + extra) received r = TaReplayer.playLoop fuel received r := by
  induction fuel generalizing received r outs with
  | zero => omega
  | succ fuel ih =>
    rw [show fuel + 1 + extra = fuel + extra + 1 by omega, TaReplayer.playLoop, TaReplayer.playLoop]
    cases hheard : exec onPlayingTaMessage r (received.headD []) with
    | none => rfl
    | some x =>
      have hquiet : Quiet r x := quiet_exec (fun _ _ _ hm => quiet_onPlayingTaMessage hm) hheard
      simp only [Option.bind_eq_bind, Option.bind_some]
      cases hload : x.1.preload with
      | none => rfl
      | some r2 =>
        obtain ⟨hfeeding, -, -, hless⟩ := Feeding.preload (h.quiet hquiet) hload
        rw [hquiet.pending, hquiet.follower] at hless
        simp only [Option.bind_some]
        split
        · rfl
        split
        · rfl
        · rename_i packet packets hpending
          cases hplay : r2.playback.playPacket packet with
          | none => rfl
          | some y =>
            have hrest : (packets.length + r2.follower.unread.length) < fuel := by
              rw [hpending, List.length_cons] at hless
              omega
            simp only [Option.bind_some]
            rw [ih (hfeeding.pop hpending hplay) hrest]

/-! ### Runs -/

/-- While it loads nothing is played, and its state is what the callbacks have made of it. -/
structure Loading (nochat : Bool) (dpIds : List ℕ) (got : Bytes) (r : TaReplayer) : Prop where
  state : r.state = .LOADING_DEMO_PLAYERS
  follows : r.follower.Follows got
  handled : ∃ r0 : TaReplayer, r.follower.parser.handled.foldlM handle (new 0 nochat dpIds) = some r0 ∧
    r = { r0 with follower := r.follower, wallClockTicks := r.wallClockTicks }

/-- What a run has come to. -/
inductive Phase (nochat : Bool) (dpIds : List ℕ) (got : Bytes) (r : TaReplayer) (outs : List PlayOutput) : Prop
  | loading (h : Loading nochat dpIds got r) (hnone : outs = []) : Phase nochat dpIds got r outs
  | feeding (p : Playback) (hstate : r.state ≠ .LOADING_DEMO_PLAYERS) (h : Feeding nochat dpIds got p r outs) :
    Phase nochat dpIds got r outs

theorem Loading.same (h : Loading nochat dpIds got r) (wallClockTicks : ℕ) :
    Loading nochat dpIds got { r with wallClockTicks } := by
  obtain ⟨r0, hfold, hr⟩ := h.handled
  refine ⟨h.state, h.follows, r0, hfold, ?_⟩
  conv_lhs => rw [hr]

theorem Loading.parse (h : Loading nochat dpIds got r) (hparse : r.parse = some r') : Loading nochat dpIds got r' := by
  obtain ⟨l, cs, -, -, -, hcs, hfold, hfollows, -⟩ := parse_inv h.follows hparse
  obtain ⟨r0, hfold0, hr⟩ := h.handled
  have hstate := (foldlM_handle_pending hfold).2
  have hr0 : { r with follower := r'.follower } =
      { r0 with follower := r'.follower, wallClockTicks := r.wallClockTicks } := by
    conv_lhs => rw [hr]
  rw [hr0, foldlM_handle_frame] at hfold
  obtain ⟨r1, hfold1, hr1⟩ := Option.map_eq_some_iff.mp hfold
  refine ⟨hstate.trans h.state, hfollows, r1, ?_, ?_⟩
  · rw [hcs, List.foldlM_append, hfold0]
    exact hfold1
  · rw [← hr1]

theorem Loading.pending (h : Loading nochat dpIds got r) :
    r.pendingGamePackets = packetsOf r.follower.parser.handled := by
  obtain ⟨r0, hfold, hr⟩ := h.handled
  have hpending := (foldlM_handle_pending hfold).1
  rw [hr]
  exact hpending

theorem Loading.complete (h : Loading nochat dpIds got r) (hpending : 0 < r.pendingGamePackets.length)
    {x : TaReplayer × List Output} (hx : r.onCompletedLoadingDemoPlayers = some x) :
    Feeding nochat dpIds got x.1.playback x.1 (played x.2) := by
  obtain ⟨hfollower, hqueue, hsilent⟩ := completed hx
  rw [played_of_silent hsilent]
  obtain ⟨before, hgot, hbefore⟩ := h.follows
  obtain ⟨r0, hfold, hr⟩ := h.handled
  have hpackets : 0 < r.follower.parser.packets := by
    rw [h.pending, length_packetsOf] at hpending
    exact hpending
  refine ⟨?_, ?_, ?_, [], [], ?_, rfl⟩
  · rw [hfollower]
    exact h.follows
  · rw [hfollower]
    exact atPackets_of_feed hbefore hpackets
  · have hsame := completed_playback r0 r0.pendingGamePackets r.follower r.wallClockTicks
    rw [← hr, hx] at hsame
    rw [hfollower, start, hfold]
    exact hsame.symm
  · rw [hfollower, hqueue, h.pending]
    rfl

theorem Loading.tick (h : Loading nochat dpIds got r) {t : Tick} (ht : r.timerEvent t = some (r', outputs)) :
    Phase nochat dpIds got r' (played outputs) := by
  obtain ⟨r1, hbegin, ht⟩ := Option.bind_eq_some_iff.mp ht
  have hticked := h.same (unsigned (r.wallClockTicks + 1))
  have hloading : Loading nochat dpIds got r1 := by
    simp only [beginTick] at hbegin
    split at hbegin
    · exact hticked.parse hbegin
    · obtain rfl := Option.some.inj hbegin
      exact hticked
  simp only [doState, hloading.state] at ht
  unfold loadingTick at ht
  split at ht
  · rename_i hloaded
    obtain ⟨⟨r2, names⟩, hcompleted, ht⟩ := Option.bind_eq_some_iff.mp ht
    cases ht
    exact .feeding r2.playback (by simp) ((hloading.complete hloaded.1 hcompleted).same rfl rfl rfl)
  · cases ht
    exact .loading hloading rfl

theorem Feeding.beginTick (h : Feeding nochat dpIds got p r outs) (hbegin : r.beginTick = some r') :
    Feeding nochat dpIds got p r' outs ∧ r'.state = r.state := by
  have hticked : Feeding nochat dpIds got p { r with wallClockTicks := unsigned (r.wallClockTicks + 1) } outs :=
    h.same rfl rfl rfl
  simp only [TaReplayer.beginTick] at hbegin
  split at hbegin
  · obtain ⟨hfeeding, hsame, -⟩ := hticked.parse hbegin
    exact ⟨hfeeding, hsame⟩
  · obtain rfl := Option.some.inj hbegin
    exact ⟨hticked, rfl⟩

theorem Feeding.loadTick (h : Feeding nochat dpIds got p r outs) {t : Tick}
    (ht : r.doLoadTick t = some (r', outputs)) (hstate : r.state ≠ .LOADING_DEMO_PLAYERS) :
    Feeding nochat dpIds got p r' (outs ++ played outputs) ∧ r'.state ≠ .LOADING_DEMO_PLAYERS := by
  obtain ⟨⟨loaded, r1, outputs1⟩, hload, ht⟩ := Option.bind_eq_some_iff.mp ht
  have hquiet := quiet_doLoad hload
  have hfeeding := h.quiet hquiet
  cases ht
  split
  · exact ⟨hfeeding.same rfl rfl rfl, by simp⟩
  · exact ⟨hfeeding, by rw [hquiet.state]; exact hstate⟩

theorem Feeding.lobbyTick (h : Feeding nochat dpIds got p r outs) {t : Tick}
    (ht : r.lobbyTick t = some (r', outputs)) (hstate : r.state ≠ .LOADING_DEMO_PLAYERS) :
    Feeding nochat dpIds got p r' (outs ++ played outputs) ∧ r'.state ≠ .LOADING_DEMO_PLAYERS := by
  obtain ⟨⟨launched, r1, heard⟩, hlobby, ht⟩ := Option.bind_eq_some_iff.mp ht
  have hready : Quiet r ({ r with launch := false }, if r.launch then [.readyToJoin] else []) := by
    refine ⟨rfl, rfl, rfl, rfl, fun output => ?_⟩
    split <;> simp
  have hquiet := hready.trans (quiet_doLobby hlobby)
  have hall := h.quiet hquiet
  cases ht
  split
  · exact ⟨hall.same rfl rfl rfl, by simp⟩
  · exact ⟨hall, by rw [hquiet.state]; exact hstate⟩

theorem Feeding.launchTick (h : Feeding nochat dpIds got p r outs) {t : Tick}
    (ht : r.launchTick t = some (r', outputs)) :
    Feeding nochat dpIds got p r' (outs ++ played outputs) ∧ r'.state ≠ .LOADING_DEMO_PLAYERS := by
  obtain ⟨⟨r1, launched⟩, hlaunch, ht⟩ := Option.bind_eq_some_iff.mp ht
  obtain ⟨⟨r2, loaded⟩, hloaded, ht⟩ := Option.bind_eq_some_iff.mp ht
  have hlaunched : Feeding nochat dpIds got p { r1 with state := .LOAD, wallClockTicks := 0 } (outs ++ played launched) :=
    (h.quiet (quiet_doLaunch hlaunch)).same rfl rfl rfl
  obtain ⟨hall, hstate⟩ := hlaunched.loadTick hloaded (by simp)
  cases ht
  rw [played_append, ← List.append_assoc]
  exact ⟨hall, hstate⟩

theorem Feeding.tick (h : Feeding nochat dpIds got p r outs) (hstate : r.state ≠ .LOADING_DEMO_PLAYERS) {t : Tick}
    (ht : r.timerEvent t = some (r', outputs)) :
    Feeding nochat dpIds got p r' (outs ++ played outputs) ∧ r'.state ≠ .LOADING_DEMO_PLAYERS := by
  obtain ⟨r1, hbegin, ht⟩ := Option.bind_eq_some_iff.mp ht
  obtain ⟨hfeeding, hsame⟩ := h.beginTick hbegin
  rw [← hsame] at hstate
  unfold doState at ht
  split at ht
  · rename_i hnot
    exact absurd hnot hstate
  · exact hfeeding.lobbyTick ht hstate
  · exact hfeeding.launchTick ht
  · exact hfeeding.loadTick ht hstate
  · obtain ⟨hall, hsame', -⟩ := hfeeding.doPlay ht
    exact ⟨hall, by rw [hsame']; exact hstate⟩
  · cases ht
    rw [show played [] = [] from rfl, List.append_nil]
    exact ⟨hfeeding, hstate⟩

theorem Phase.step {got : Bytes} (h : Phase nochat dpIds got r outs) {e : Event}
    (hs : r.step e = some (r', outputs)) : Phase nochat dpIds (got ++ grown [e]) r' (outs ++ played outputs) := by
  cases e with
  | grow bytes =>
    cases hs
    have hgrown : grown [.grow bytes] = bytes := List.append_nil _
    have hfollows : ∀ {f : Follower}, f.Follows got → ({ f with unread := f.unread ++ bytes }).Follows (got ++ bytes) := by
      intro f hf
      obtain ⟨l, hl, hfeed⟩ := hf
      exact ⟨l, by rw [hl, List.append_assoc], hfeed⟩
    rw [hgrown, show played [] = [] from rfl, List.append_nil]
    cases h with
    | loading hl hnone =>
      obtain ⟨r0, hfold, hr⟩ := hl.handled
      refine .loading ⟨hl.state, hfollows hl.follows, r0, hfold, ?_⟩ hnone
      conv_lhs => rw [hr]
    | feeding p hstate hf =>
      exact .feeding p hstate ⟨hfollows hf.follows, hf.reads, hf.started, hf.fed⟩
  | timerEvent t =>
    rw [show grown [.timerEvent t] = [] from rfl, List.append_nil]
    cases h with
    | loading hl hnone =>
      rw [hnone, List.nil_append]
      exact hl.tick hs
    | feeding p hstate hf =>
      obtain ⟨hf', hstate'⟩ := hf.tick hstate hs
      exact .feeding p hstate' hf'

theorem phase_new (n : ℤ) : Phase nochat dpIds [] (new n nochat dpIds) [] :=
  .loading ⟨rfl, ⟨[], rfl, rfl⟩, new 0 nochat dpIds, rfl, rfl⟩ rfl

theorem grown_append (es es' : List Event) : grown (es ++ es') = grown es ++ grown es' := List.flatMap_append

theorem phase_run {n : ℤ} {es : List Event} (h : exec step (new n nochat dpIds) es = some (r, outputs)) :
    Phase nochat dpIds (grown es) r (played outputs) := by
  have hall := exec_invariant (P := fun es outputs r => Phase nochat dpIds (grown es) r (played outputs))
    (fun es os s e s' o hp hs => by
      rw [grown_append, played_append]
      exact hp.step hs)
    es [] [] (phase_new n) h
  exact hall

/-- The packets of the finished demo begin with those that have been fed. -/
theorem Feeding.begins (h : Feeding nochat dpIds got p r outs) {S : Bytes} {m : ℤ} {one : Follower}
    (hone : (Follower.new m).run [.grow S, .parse 0] = .ok one) (hgot : got <+: S) :
    start nochat dpIds one.parser.handled = some p ∧
      ∃ k log, playPackets p ((packetsOf one.parser.handled).take k) = some (r.playback, log, outs) := by
  have hS := Follower.feed_oneShot hone
  obtain ⟨l, hl, hfeed⟩ := h.follows
  obtain ⟨later, hlater⟩ := hgot
  obtain ⟨header, k, hat⟩ := h.reads
  rw [← hlater, hl, List.append_assoc, feed_append_ok hfeed] at hS
  obtain ⟨cs, hcs, hpackets⟩ := hat.feed hS
  obtain ⟨packets, log, hsplit, hplay⟩ := h.fed
  rw [hcs, start_append _ hpackets]
  refine ⟨h.started, packets.length, log, ?_⟩
  rw [packetsOf_append, hsplit, List.append_assoc, List.take_left]
  exact hplay

theorem Phase.played_of {got : Bytes} (h : Phase nochat dpIds got r outs) {S : Bytes} {m : ℤ} {one : Follower}
    (hone : (Follower.new m).run [.grow S, .parse 0] = .ok one) (hgot : got <+: S) :
    r.state = .LOADING_DEMO_PLAYERS ∧ outs = [] ∨
      r.state ≠ .LOADING_DEMO_PLAYERS ∧ ∃ p, start nochat dpIds one.parser.handled = some p ∧
        ∃ k log, playPackets p ((packetsOf one.parser.handled).take k) = some (r.playback, log, outs) := by
  cases h with
  | loading hl hnone => exact .inl ⟨hl.state, hnone⟩
  | feeding p hstate hf => exact .inr ⟨hstate, p, hf.begins hone hgot⟩

/-! ### A demo with one player, and a guest who watches -/

def record (bs : Bytes) : Bytes := leBytes 2 (bs.length + 2) ++ bs

/-- The player has the id 5. -/
def soloDemo : Bytes :=
  record (tadMagic ++ [3, 0, 1, 0xf4, 1, 0x6d, 0x61, 0x70]) ++ record [0, 0, 1, 65] ++
  record ([1, 4, 246, 11, 195, 251, 250, 249, 248, 40, 9, 103, 11, 82, 12, 113, 81, 18, 79, 17, 77, 16, 123, 22,
    121, 24, 119, 26, 117, 28, 24, 233, 116, 32, 79, 34, 77, 36, 0, 0, 0]) ++ record [1, 2] ++
  record [60, 0, 1, 3, 0, 0, 0, 0, 0x19, 1, 2]

def laterPacket : Bytes := record [50, 0, 1, 3, 0, 0, 0, 0, 8]

def hearing (ms : List Datagram) : Event := .timerEvent ⟨[ms], 0, 0⟩

def fromGuest (subpak : Bytes) : Event := hearing [⟨100, 7, encrypt (trivialSmartpak subpak 0)⟩]

def guestJoins : Event := hearing [⟨0, 7, leBytes 4 3 ++ leBytes 4 0 ++ leBytes 4 100⟩]

def guestClicksIn : Event := fromGuest ([0x20] ++ List.replicate 155 0 ++ [0x20] ++ List.replicate 35 0)

def guestReceives (n : ℕ) : Event := fromGuest ([0x1a, 4] ++ leBytes 4 0 ++ leBytes 4 0 ++ leBytes 4 n)

def quietTicks (n : ℕ) : List Event := List.replicate n (hearing [])

def soloEvents : List Event :=
  [.grow soloDemo, hearing [], guestJoins, guestClicksIn] ++ quietTicks 18 ++ [guestReceives 1] ++ quietTicks 29 ++
    [guestReceives 101] ++ quietTicks 30 ++ [fromGuest [0x15]] ++ quietTicks 19

-- the limit is for the 103 events
set_option maxRecDepth 10000 in
/-- The guest is let in and plays, and the next tick plays what there is. -/
theorem solo_run : ((exec step (new 0 false [8, 7]) soloEvents).bind fun x => (x.1.timerEvent ⟨[], 0, 0⟩).map fun y =>
    decide (x.1.state = .PLAY ∧ y.1.state = .PLAY ∧ y.1.isPaused = false ∧ y.1.reached = false)) = some true := by decide +kernel

theorem exists_solo : ∃ r outputs r' more, exec step (new 0 false [8, 7]) soloEvents = some (r, outputs) ∧
    r.timerEvent ⟨[], 0, 0⟩ = some (r', more) ∧ r.state = .PLAY ∧ r'.state = .PLAY ∧ r'.isPaused = false ∧
    r'.reached = false := by
  obtain ⟨⟨r, outputs⟩, hrun, h⟩ := Option.bind_eq_some_iff.mp solo_run
  obtain ⟨⟨r', more⟩, htick, h⟩ := Option.map_eq_some_iff.mp h
  exact ⟨r, outputs, r', more, hrun, htick, of_decide_eq_true h⟩

theorem exists_one {S : Bytes} (h : ((Follower.new 0).run [.grow S, .parse 0]).toOption.isSome = true) :
    ∃ one, (Follower.new 0).run [.grow S, .parse 0] = .ok one := by
  cases hrun : (Follower.new 0).run [.grow S, .parse 0] with
  | ok one => exact ⟨one, rfl⟩
  | error e =>
    rw [hrun] at h
    cases h

theorem grown_soloEvents : grown soloEvents = soloDemo := by decide +kernel

/-- Whatever the demo grows by and when, whatever those who watch send and whatever the clock says:
once the players are loaded the play begins as it would begin for the finished demo, and what has
been played is what its first packets give, one after the other. -/
theorem played_beginning {n : ℤ} {es : List Event} (h : exec step (new n nochat dpIds) es = some (r, outputs))
    {S : Bytes} {m : ℤ} {one : Follower} (hone : (Follower.new m).run [.grow S, .parse 0] = .ok one)
    (hgrown : grown es <+: S) :
    r.state = .LOADING_DEMO_PLAYERS ∧ played outputs = [] ∨
      r.state ≠ .LOADING_DEMO_PLAYERS ∧ ∃ p, start nochat dpIds one.parser.handled = some p ∧
        ∃ k log, playPackets p ((packetsOf one.parser.handled).take k) = some (r.playback, log, played outputs) :=
  (phase_run h).played_of hone hgrown

theorem played_beginning_solo : ∃ r outputs one,
    exec step (new 0 false [8, 7]) (soloEvents ++ [hearing []]) = some (r, outputs) ∧
    (Follower.new 0).run [.grow (soloDemo ++ laterPacket), .parse 0] = .ok one ∧ r.state = .PLAY ∧
    ∃ p, start false [8, 7] one.parser.handled = some p ∧
      ∃ k log, playPackets p ((packetsOf one.parser.handled).take k) = some (r.playback, log, played outputs) := by
  obtain ⟨one, hone⟩ := exists_one (S := soloDemo ++ laterPacket) (by decide +kernel)
  obtain ⟨r, outputs, r', more, hrun, htick, -, hstate, -⟩ := exists_solo
  have hgrown : grown (soloEvents ++ [hearing []]) <+: soloDemo ++ laterPacket := by
    rw [grown_append, grown_soloEvents]
    exact ⟨laterPacket, congrArg (· ++ laterPacket) (List.append_nil soloDemo)⟩
  have hall := exec_concat (e := hearing []) hrun htick
  rcases played_beginning hall hone hgrown with ⟨hloading, -⟩ | ⟨-, hplayed⟩
  · rw [hstate] at hloading
    cases hloading
  · exact ⟨r', outputs ++ more, one, hall, hone, hstate, hplayed⟩

/-- When a tick leaves the replay neither paused nor at its target, all that has been read of the
demo has been played: it is the play of a demo that ends here. -/
theorem caught_up {n : ℤ} {es : List Event} (h : exec step (new n nochat dpIds) es = some (r, outputs))
    (hstate : r.state = .PLAY) {t : Tick} {more : List Output} (ht : r.timerEvent t = some (r', more))
    (hpaused : r'.isPaused = false) (hreached : r'.reached = false) {m : ℤ} {one : Follower}
    (hone : (Follower.new m).run [.grow (grown es), .parse 0] = .ok one) :
    ∃ p log, start nochat dpIds one.parser.handled = some p ∧
      playPackets p (packetsOf one.parser.handled) = some (r'.playback, log, played (outputs ++ more)) := by
  cases phase_run h with
  | loading hl hnone =>
    rw [hl.state] at hstate
    cases hstate
  | feeding p _ hf =>
    obtain ⟨r1, hbegin, ht⟩ := Option.bind_eq_some_iff.mp ht
    obtain ⟨hticked, hsame⟩ := hf.beginTick hbegin
    simp only [doState, hsame.trans hstate] at ht
    obtain ⟨hall, -, hstop⟩ := hticked.doPlay ht
    have hempty : r'.pendingGamePackets = [] ∧ r'.follower.unread = [] := by
      rcases hstop with hp | hr | hempty
      · rw [hpaused] at hp
        cases hp
      · rw [hreached] at hr
        cases hr
      · exact hempty
    have hS := Follower.feed_oneShot hone
    obtain ⟨l, hl, hfeed⟩ := hall.follows
    rw [hl, hempty.2, List.append_nil, hfeed] at hS
    obtain ⟨packets, log, hsplit, hplay⟩ := hall.fed
    rw [hempty.1, List.append_nil] at hsplit
    rw [← Except.ok.inj hS, played_append]
    refine ⟨p, log, hall.started, ?_⟩
    rw [hsplit]
    exact hplay

theorem caught_up_solo : ∃ r outputs r' more one p log,
    exec step (new 0 false [8, 7]) soloEvents = some (r, outputs) ∧ r.timerEvent ⟨[], 0, 0⟩ = some (r', more) ∧
    (Follower.new 0).run [.grow soloDemo, .parse 0] = .ok one ∧ start false [8, 7] one.parser.handled = some p ∧
    playPackets p (packetsOf one.parser.handled) = some (r'.playback, log, played (outputs ++ more)) := by
  obtain ⟨one, hone⟩ := exists_one (S := soloDemo) (by decide +kernel)
  obtain ⟨r, outputs, r', more, hrun, htick, hstate, -, hpaused, hreached⟩ := exists_solo
  have hgrown : (Follower.new 0).run [.grow (grown soloEvents), .parse 0] = .ok one := by
    rw [grown_soloEvents]
    exact hone
  obtain ⟨p, log, hstart, hplay⟩ := caught_up hrun hstate htick hpaused hreached hgrown
  exact ⟨r, outputs, r', more, one, p, log, hrun, htick, hone, hstart, hplay⟩

end feeding

end TaReplayer

end Gpgnet4TA.Replayer
