import Gpgnet4TA.Replayer.LiveReplay
import Gpgnet4TA.Tareplay.Resume

/-!
# Watching a game live (`replayer.cpp:279-286`)

The replayer reads the file to which a client of the replay server writes what it receives. That
reaches the file a part at a time, as the `std::ofstream` empties its buffer.
-/

namespace Gpgnet4TA.Replayer
open Gpgnet4TA.Lib Gpgnet4TA.Tapacket Gpgnet4TA.Tareplay

/-- `flushed` bytes of what the client has received are in the file. -/
structure LiveViewer where
  system : System
  flushed : ℕ
  replayer : TaReplayer

namespace LiveViewer

def new (G : ℕ) (maxBytesPerUserPerSecond numTimesNewDataReceived : ℤ) (nochat : Bool) (dpIdsPrealloc : List ℕ) :
    LiveViewer :=
  ⟨.new G maxBytesPerUserPerSecond, 0, .new numTimesNewDataReceived nochat dpIdsPrealloc⟩

inductive Event where
  | system (e : SystemEvent)
  /-- Up to `n` more bytes reach the file. -/
  | flush (n : ℕ)
  | timerEvent (t : Tick)

def flushes (v : LiveViewer) (n : ℕ) : Bytes := (v.system.client.replayBuffer.drop v.flushed).take n

def step (v : LiveViewer) : Event → Option (LiveViewer × List Output)
  | .system e => (v.system.step e).map fun system => ({ v with system }, [])
  | .flush n => (v.replayer.step (.grow (v.flushes n))).map fun x =>
      ({ v with flushed := v.flushed + (v.flushes n).length, replayer := x.1 }, x.2)
  | .timerEvent t => (v.replayer.timerEvent t).map fun x => ({ v with replayer := x.1 }, x.2)

/-- What the server, the network and the client do in a run. -/
def systemEvents (es : List Event) : List SystemEvent :=
  es.filterMap fun
    | .system e => some e
    | _ => none

theorem systemEvents_concat (es : List Event) (e : Event) :
    systemEvents (es ++ [e]) = systemEvents es ++ systemEvents [e] := List.filterMap_append

/-! ### What the client has received stays -/

theorem replayBuffer_onCommand {c c' : TaReplayClient} {command : Gpgnet.Command}
    (h : c.onCommand command = some c') : c.replayBuffer <+: c'.replayBuffer := by
  unfold TaReplayClient.onCommand at h
  split at h
  · obtain ⟨msg, -, rfl⟩ := Option.map_eq_some_iff.mp h
    split
    · exact List.prefix_append _ _
    · exact List.prefix_rfl
  · obtain rfl := Option.some.inj h
    exact List.prefix_rfl

theorem replayBuffer_onCommands {cs : List Gpgnet.Command} {c c' : TaReplayClient}
    (h : TaReplayClient.onCommands cs c = some c') : c.replayBuffer <+: c'.replayBuffer := by
  induction cs generalizing c with
  | nil =>
    obtain rfl := Option.some.inj h
    exact List.prefix_rfl
  | cons command cs ih =>
    obtain ⟨c1, hc1, hrest⟩ := Option.bind_eq_some_iff.mp h
    exact (replayBuffer_onCommand hc1).trans (ih hrest)

theorem replayBuffer_step {s s' : System} {e : SystemEvent} (h : s.step e = some s') :
    s.client.replayBuffer <+: s'.client.replayBuffer := by
  cases e with
  | server e =>
    simp only [System.step, System.server] at h
    split at h
    · obtain ⟨world, -, rfl⟩ := Option.map_eq_some_iff.mp h
      exact List.prefix_rfl
    · cases h
  | restart =>
    obtain rfl := Option.some.inj h
    exact List.prefix_rfl
  | connect socket =>
    simp only [System.step, System.connect] at h
    split at h
    · obtain rfl := Option.some.inj h
      exact List.prefix_rfl
    · cases h
  | toServer n =>
    obtain ⟨c, -, h⟩ := Option.bind_eq_some_iff.mp h
    obtain ⟨world, -, h⟩ := Option.bind_eq_some_iff.mp h
    cases h
    exact List.prefix_rfl
  | toClient n =>
    obtain ⟨c, -, h⟩ := Option.bind_eq_some_iff.mp h
    obtain ⟨client, hclient, h⟩ := Option.bind_eq_some_iff.mp h
    cases h
    exact replayBuffer_onCommands (c := { s.client with
      receiver := s.client.receiver.onReadyRead (s.chunkToClient c n) }) hclient
  | drop =>
    obtain rfl := Option.some.inj h
    exact List.prefix_rfl

/-! ### Runs -/

section runs

variable {G : ℕ} {maxBytes n : ℤ} {nochat : Bool} {dpIds : List ℕ} {v v' : LiveViewer} {outputs more : List Output}

/-- The system has run by itself, and so has the replayer on what is in the file. -/
structure Watching (G : ℕ) (maxBytes n : ℤ) (nochat : Bool) (dpIds : List ℕ) (past : List Event) (v : LiveViewer)
    (outputs : List Output) : Prop where
  system : run System.step (System.new G maxBytes) (systemEvents past) = some v.system
  flushed : v.flushed ≤ v.system.client.replayBuffer.length
  replays : ∃ es, exec TaReplayer.step (.new n nochat dpIds) es = some (v.replayer, outputs) ∧
    TaReplayer.grown es = v.system.client.replayBuffer.take v.flushed

theorem watching_new : Watching G maxBytes n nochat dpIds [] (new G maxBytes n nochat dpIds) [] :=
  ⟨rfl, Nat.zero_le _, [], rfl, rfl⟩

theorem take_flushes (v : LiveViewer) (n : ℕ) : v.system.client.replayBuffer.take v.flushed ++ v.flushes n =
    v.system.client.replayBuffer.take (v.flushed + (v.flushes n).length) := by
  have hpart : v.flushes n = (v.system.client.replayBuffer.drop v.flushed).take (v.flushes n).length :=
    List.prefix_iff_eq_take.mp (List.take_prefix n _)
  rw [List.take_add, ← hpart]

theorem Watching.step {past : List Event} (h : Watching G maxBytes n nochat dpIds past v outputs) {e : Event}
    (hs : v.step e = some (v', more)) :
    Watching G maxBytes n nochat dpIds (past ++ [e]) v' (outputs ++ more) := by
  obtain ⟨es, hexec, hgrown⟩ := h.replays
  cases e with
  | system e =>
    obtain ⟨system, hsystem, heq⟩ := Option.map_eq_some_iff.mp hs
    cases heq
    rw [List.append_nil]
    obtain ⟨later, hlater⟩ := replayBuffer_step hsystem
    have hlen := congrArg List.length hlater
    rw [List.length_append] at hlen
    have hflushed := h.flushed
    refine ⟨?_, ?_, es, hexec, ?_⟩
    · rw [systemEvents_concat, run_append, h.system, Option.bind_some]
      show (v.system.step e).bind _ = _
      rw [hsystem]
      rfl
    · show v.flushed ≤ system.client.replayBuffer.length
      omega
    · show _ = system.client.replayBuffer.take v.flushed
      rw [hgrown, ← hlater, List.take_append_of_le_length h.flushed]
  | flush k =>
    simp only [LiveViewer.step] at hs
    obtain ⟨⟨r, os⟩, hr, heq⟩ := Option.map_eq_some_iff.mp hs
    cases heq
    have hlen : (v.flushes k).length ≤ v.system.client.replayBuffer.length - v.flushed := by
      simp [flushes]
    have hflushed := h.flushed
    refine ⟨?_, ?_, es ++ [.grow (v.flushes k)], exec_concat hexec hr, ?_⟩
    · rw [systemEvents_concat]
      exact (congrArg _ (List.append_nil _)).trans h.system
    · show v.flushed + (v.flushes k).length ≤ v.system.client.replayBuffer.length
      omega
    · rw [TaReplayer.grown_append, hgrown]
      show _ ++ (v.flushes k ++ []) = _
      rw [List.append_nil, take_flushes]
  | timerEvent t =>
    obtain ⟨⟨r, os⟩, hr, heq⟩ := Option.map_eq_some_iff.mp hs
    cases heq
    have hstep : v.replayer.step (.timerEvent t) = some (r, os) := hr
    refine ⟨?_, h.flushed, es ++ [.timerEvent t], exec_concat hexec hstep, ?_⟩
    · rw [systemEvents_concat]
      exact (congrArg _ (List.append_nil _)).trans h.system
    · rw [TaReplayer.grown_append, hgrown]
      exact List.append_nil _

theorem watching_run {es : List Event} (h : exec LiveViewer.step (new G maxBytes n nochat dpIds) es = some (v, outputs)) :
    Watching G maxBytes n nochat dpIds es v outputs :=
  exec_invariant (P := fun past outputs v => Watching G maxBytes n nochat dpIds past v outputs)
    (fun _ _ _ _ _ _ hw hs => hw.step hs) es [] [] watching_new h

/-- Where the download resumes, all that is in the client's file has come from the file of the game. -/
theorem Watching.received_content {past : List Event} (h : Watching G maxBytes n nochat dpIds past v outputs)
    (hG : G < 2 ^ 16) (hresumes : Along System.step (Resumes G) (System.new G maxBytes) (systemEvents past)) :
    v.system.client.replayBuffer <+: v.system.world.files.content G := by
  have hall : ResumeOk G v.system :=
    (Runs.of_along h.system hresumes).invariant (resumeOk_new hG maxBytes) fun t e t' ht he hs => ht.step hG he hs
  rw [hall.buffer]
  exact List.take_prefix _ _

/-! ### A viewer who loses the connection -/

/-- Half of the demo is there when the connection is made, the other half after it has been lost. -/
def arriving : List Event :=
  [.server (.create 7 true), .server (.append 7 (TaReplayer.soloDemo.take 60)), .server (.setGameInfo 7 0 "live"),
    .server .timerEvent, .connect 1, .toServer 100, .server .timerEvent, .toClient 1000, .drop,
    .server (.append 7 (TaReplayer.soloDemo.drop 60)), .server .timerEvent, .connect 2, .toServer 100,
    .server .timerEvent, .toClient 20, .toClient 1000].map .system

def ofReplayer : TaReplayer.Event → Event
  | .grow bytes => .flush bytes.length
  | .timerEvent t => .timerEvent t

def soloViewing : List Event := arriving ++ TaReplayer.soloEvents.map ofReplayer ++ [.timerEvent ⟨[], 0, 0⟩]

set_option maxRecDepth 10000 in
theorem solo_viewed : ((exec LiveViewer.step (new 7 1000 0 false [8, 7]) soloViewing).map fun x =>
    decide (x.1.system.world.files.content 7 = TaReplayer.soloDemo ∧ (TaReplayer.played x.2).length = 1)) =
      some true := by
  decide +kernel

/-- However the demo is written, sent, cut, lost with a connection and asked for again, as far as the
download resumes where it stopped, and whatever the guests do: what is played is what the first
packets of the finished demo give. -/
theorem plays_demo (hG : G < 2 ^ 16) {es : List Event}
    (h : exec LiveViewer.step (new G maxBytes n nochat dpIds) es = some (v, outputs))
    (hresumes : Along System.step (Resumes G) (System.new G maxBytes) (systemEvents es)) {S : Bytes} {m : ℤ}
    {one : Follower} (hone : (Follower.new m).run [.grow S, .parse 0] = .ok one)
    (hwritten : v.system.world.files.content G <+: S) :
    v.replayer.state = .LOADING_DEMO_PLAYERS ∧ TaReplayer.played outputs = [] ∨
      v.replayer.state ≠ .LOADING_DEMO_PLAYERS ∧ ∃ p, TaReplayer.start nochat dpIds one.parser.handled = some p ∧
        ∃ k log, p.playPackets ((TaReplayer.packetsOf one.parser.handled).take k) =
          some (v.replayer.playback, log, TaReplayer.played outputs) := by
  have hwatching := watching_run h
  obtain ⟨es', hexec, hgrown⟩ := hwatching.replays
  refine (TaReplayer.phase_run hexec).played_of hone ?_
  rw [hgrown]
  exact (List.take_prefix _ _).trans ((hwatching.received_content hG hresumes).trans hwritten)

theorem plays_demo_solo : ∃ v outputs one,
    exec LiveViewer.step (new 7 1000 0 false [8, 7]) soloViewing = some (v, outputs) ∧
    (TaReplayer.played outputs).length = 1 ∧
    (Follower.new 0).run [.grow (TaReplayer.soloDemo ++ TaReplayer.laterPacket), .parse 0] = .ok one ∧
    ∃ p, TaReplayer.start false [8, 7] one.parser.handled = some p ∧
      ∃ k log, p.playPackets ((TaReplayer.packetsOf one.parser.handled).take k) =
        some (v.replayer.playback, log, TaReplayer.played outputs) := by
  obtain ⟨one, hone⟩ := TaReplayer.exists_one (S := TaReplayer.soloDemo ++ TaReplayer.laterPacket) (by decide +kernel)
  obtain ⟨⟨v, outputs⟩, hrun, h⟩ := Option.map_eq_some_iff.mp solo_viewed
  obtain ⟨hcontent, hplayed⟩ := of_decide_eq_true h
  have hwritten : v.system.world.files.content 7 <+: TaReplayer.soloDemo ++ TaReplayer.laterPacket := by
    rw [hcontent]
    exact List.prefix_append _ _
  have hresumes : Along System.step (Resumes 7) (System.new 7 1000) (systemEvents soloViewing) := by decide +kernel
  rcases plays_demo (by decide) hrun hresumes hone hwritten with ⟨-, hnothing⟩ | ⟨-, hfed⟩
  · rw [hnothing] at hplayed
    cases hplayed
  · exact ⟨v, outputs, one, hrun, hplayed, hone, hfed⟩

end runs

end LiveViewer

end Gpgnet4TA.Replayer
