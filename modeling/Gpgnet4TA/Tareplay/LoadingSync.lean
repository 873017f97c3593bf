import Gpgnet4TA.Lib.Since
import Gpgnet4TA.Tareplay.DemoCompilerClient

/-!
# The message that loading has begun

The client announces as many arguments as players are connected, and sends the host first and then
the others. That is one too many if the host is not among the connected players.
-/

namespace Gpgnet4TA.Tareplay
open Gpgnet4TA.Lib Gpgnet4TA.Gpgnet Gpgnet4TA.Tapacket

namespace TaDemoCompilerClient

/-! ### The property -/

/-- What is sent is one command, and nothing is left: the host and every other player. -/
def LoadingInSync (q : Platform) (c : TaDemoCompilerClient) : Prop :=
  ∃ others parser, GpgNetParse.getCommand .new (sendGamePlayerLoading q c c.dpConnectedPlayers) =
      (.ok ⟨GamePlayerLoading.ID, (c.hostDplayId :: others).map .int⟩, parser, []) ∧
    others.Perm (c.dpConnectedPlayers.toList.filter (· ≠ c.hostDplayId))

/-! ### The condition -/

/-- The id and the name in an event that makes a player connected. -/
def announced : HandlerCall → Option (ℕ × Bytes)
  | .onDplaySuperEnumPlayerReply dplayId name => if 0 < dplayId ∧ name ≠ [] then some (dplayId, name) else none
  | .onDplayCreateOrForwardPlayer _ dplayId name => if 0 < dplayId ∧ name ≠ [] then some (dplayId, name) else none
  | _ => none

def Joins (d : ℕ) (call : HandlerCall) : Prop := ∃ name, announced call = some (d, name)

def Leaves (d : ℕ) (call : HandlerCall) : Prop := call = .onDplayDeletePlayer d

/-- The player announced under the id has the name of the host. -/
def JoinsAsHost (q : Platform) (hostPlayerName : Bytes) (d : ℕ) (call : HandlerCall) : Prop :=
  hostPlayerName ≠ [] ∧ ∃ name, announced call = some (d, name) ∧ q.fromUtf8 (cString name) = hostPlayerName

/-- The id under which the host was announced last is announced and was not deleted since. -/
def HostConnected (q : Platform) (hostPlayerName : Bytes) (calls : List HandlerCall) : Prop :=
  ∃ d, Since (JoinsAsHost q hostPlayerName d) (fun call => ∃ d', JoinsAsHost q hostPlayerName d' call) calls ∧
    Since (Joins d) (Leaves d) calls

/-! ### What an event does to the players -/

section players

variable {q : Platform} {c c' : TaDemoCompilerClient} {call : HandlerCall} {d : ℕ} {name : Bytes}

theorem onSubpaks_players {sourceDplayId : ℕ} (subpaks : List Bytes) {smartPaker : SmartPaker} {moves sent : Bytes}
    (h : onSubpaks q sourceDplayId c smartPaker subpaks = some (c', moves, sent)) : c' = { c with ticks := c'.ticks } := by
  induction subpaks generalizing c smartPaker moves sent with
  | nil =>
    cases h
    rfl
  | cons s subpaks ih =>
    obtain ⟨⟨ticks, first⟩, -, h⟩ := Option.bind_eq_some_iff.mp h
    obtain ⟨⟨c1, moves1, more⟩, h1, h⟩ := Option.bind_eq_some_iff.mp h
    cases h
    have hrest := ih h1
    exact hrest

theorem onDplayPlayer_players (hannounced : 0 < d ∧ name ≠ []) :
    (onDplayPlayer q c d name).client.dpConnectedPlayers = c.dpConnectedPlayers.insert d ∧
      (onDplayPlayer q c d name).client.hostPlayerName = c.hostPlayerName ∧
      (onDplayPlayer q c d name).client.hostDplayId =
        if c.hostPlayerName ≠ [] ∧ q.fromUtf8 (cString name) = c.hostPlayerName then d else c.hostDplayId := by
  unfold onDplayPlayer
  rw [if_pos hannounced]
  dsimp only
  split_ifs <;> simp_all

theorem announced_pos (h : announced call = some (d, name)) : 0 < d ∧ name ≠ [] := by
  unfold announced at h
  split at h
  · split at h
    · rename_i hpos
      cases h
      exact hpos
    · cases h
  · split at h
    · rename_i hpos
      cases h
      exact hpos
    · cases h
  · cases h

/-- Who is connected and who is the host, as the events tell. -/
structure Players (q : Platform) (hostPlayerName : Bytes) (calls : List HandlerCall) (c : TaDemoCompilerClient) : Prop where
  name : c.hostPlayerName = hostPlayerName
  connected : ∀ d, d ∈ c.dpConnectedPlayers ↔ Since (Joins d) (Leaves d) calls
  host : ∀ d, d ≠ 0 → (c.hostDplayId = d ↔
    Since (JoinsAsHost q hostPlayerName d) (fun call => ∃ d', JoinsAsHost q hostPlayerName d' call) calls)

section event

variable {hostPlayerName : Bytes} {calls : List HandlerCall} (hp : Players q hostPlayerName calls c)
include hp

theorem players_announced (hannounced : announced call = some (d, name)) :
    Players q hostPlayerName (calls ++ [call]) (onDplayPlayer q c d name).client := by
  have hpos := announced_pos hannounced
  obtain ⟨hconnected, hname, hhost⟩ := onDplayPlayer_players (q := q) (c := c) hpos
  have hleaves (d' : ℕ) : ¬ Leaves d' call := by
    intro hleaves
    rw [hleaves] at hannounced
    cases hannounced
  have hjoins (d' : ℕ) : Joins d' call ↔ d' = d := by
    constructor
    · intro h
      obtain ⟨name', h⟩ := h
      exact (Prod.mk.inj (Option.some.inj (h.symm.trans hannounced))).1
    · intro h
      exact ⟨name, h ▸ hannounced⟩
  have hashost (d' : ℕ) : JoinsAsHost q hostPlayerName d' call ↔
      d' = d ∧ hostPlayerName ≠ [] ∧ q.fromUtf8 (cString name) = hostPlayerName := by
    constructor
    · intro h
      obtain ⟨hne, name', h, hutf8⟩ := h
      obtain ⟨rfl, rfl⟩ := Prod.mk.inj (Option.some.inj (h.symm.trans hannounced))
      exact ⟨rfl, hne, hutf8⟩
    · intro h
      obtain ⟨rfl, hne, hutf8⟩ := h
      exact ⟨hne, name, hannounced, hutf8⟩
  refine ⟨hname.trans hp.name, fun d' => ?_, fun d' hd' => ?_⟩
  · rw [hconnected, since_concat, hjoins, ← hp.connected, Std.ExtTreeSet.mem_insert, compare_eq_iff_eq]
    exact or_congr eq_comm (and_iff_left (hleaves d')).symm
  · rw [hhost, hp.name, since_concat, hashost, ← hp.host d' hd']
    simp only [hashost]
    by_cases hcond : hostPlayerName ≠ [] ∧ q.fromUtf8 (cString name) = hostPlayerName
    · rw [if_pos hcond]
      constructor
      · intro h
        exact .inl ⟨h.symm, hcond⟩
      · intro h
        obtain ⟨rfl, -⟩ | ⟨-, hno⟩ := h
        · rfl
        · exact absurd ⟨d, rfl, hcond⟩ hno
    · rw [if_neg hcond]
      simp only [hcond, and_false, exists_false, not_false_eq_true, and_true, false_or]

theorem players_other (hnone : announced call = none) (hleaves : ∀ d, ¬ Leaves d call)
    (hsame : c'.hostPlayerName = c.hostPlayerName ∧ c'.hostDplayId = c.hostDplayId ∧
      c'.dpConnectedPlayers = c.dpConnectedPlayers) : Players q hostPlayerName (calls ++ [call]) c' := by
  obtain ⟨hname, hhost, hconnected⟩ := hsame
  have hjoins (d : ℕ) : ¬ Joins d call := by
    intro h
    obtain ⟨name, h⟩ := h
    rw [hnone] at h
    cases h
  have hashost (d : ℕ) : ¬ JoinsAsHost q hostPlayerName d call := by
    intro h
    obtain ⟨-, name, h, -⟩ := h
    rw [hnone] at h
    cases h
  refine ⟨hname.trans hp.name, fun d => ?_, fun d hd => ?_⟩
  · rw [hconnected, since_concat, ← hp.connected]
    simp only [hjoins, hleaves, false_or, not_false_eq_true, and_true]
  · rw [hhost, since_concat, ← hp.host d hd]
    simp only [hashost, exists_false, false_or, not_false_eq_true, and_true]

theorem players_deleted (d : ℕ) :
    Players q hostPlayerName (calls ++ [.onDplayDeletePlayer d]) (onDplayDeletePlayer c d).client := by
  have hjoins (d' : ℕ) : ¬ Joins d' (.onDplayDeletePlayer d) := by
    intro h
    obtain ⟨name, h⟩ := h
    cases h
  have hashost (d' : ℕ) : ¬ JoinsAsHost q hostPlayerName d' (.onDplayDeletePlayer d) := by
    intro h
    obtain ⟨-, name, h, -⟩ := h
    cases h
  have hleaves (d' : ℕ) : Leaves d' (.onDplayDeletePlayer d) ↔ d = d' := HandlerCall.onDplayDeletePlayer.injEq d d' ▸ Iff.rfl
  refine ⟨hp.name, fun d' => ?_, fun d' hd' => ?_⟩
  · rw [since_concat, ← hp.connected, hleaves]
    simp only [hjoins, false_or, onDplayDeletePlayer, Std.ExtTreeSet.mem_erase, ne_eq, compare_eq_iff_eq]
    exact and_comm
  · rw [since_concat, ← hp.host d' hd']
    simp only [hashost, exists_false, false_or, not_false_eq_true, and_true]
    exact Iff.rfl

theorem players_step (hstep : step q c call = some c') : Players q hostPlayerName (calls ++ [call]) c' := by
  obtain ⟨handled, hhandled, rfl⟩ := Option.map_eq_some_iff.mp hstep
  cases call with
  | onDplaySuperEnumPlayerReply d name =>
    cases hhandled
    by_cases hannounced : 0 < d ∧ name ≠ []
    · exact players_announced hp (if_pos hannounced)
    · refine players_other hp (if_neg hannounced) (fun d' h => by cases h) ?_
      unfold onDplaySuperEnumPlayerReply onDplayPlayer
      rw [if_neg hannounced]
      exact ⟨rfl, rfl, rfl⟩
  | onDplayCreateOrForwardPlayer command d name =>
    cases hhandled
    by_cases hannounced : 0 < d ∧ name ≠ []
    · exact players_announced hp (if_pos hannounced)
    · refine players_other hp (if_neg hannounced) (fun d' h => by cases h) ?_
      unfold onDplayCreateOrForwardPlayer onDplayPlayer
      rw [if_neg hannounced]
      exact ⟨rfl, rfl, rfl⟩
  | onDplayDeletePlayer d =>
    cases hhandled
    exact players_deleted hp d
  | onTaPacket sourceDplayId otherDplayId isLocalSource encrypted subpaks =>
    refine players_other hp rfl (fun d' h => by cases h) ?_
    have hhandled : onTaPacket q c sourceDplayId isLocalSource subpaks = some handled := hhandled
    unfold onTaPacket at hhandled
    split at hhandled
    · obtain ⟨⟨c1, moves, sent⟩, hsubpaks, hhandled⟩ := Option.bind_eq_some_iff.mp hhandled
      have hsame := onSubpaks_players subpaks hsubpaks
      cases hhandled
      dsimp only
      rw [hsame]
      exact ⟨rfl, rfl, rfl⟩
    · cases hhandled
      exact ⟨rfl, rfl, rfl⟩

end event

theorem players_run {hostPlayerName : Bytes} (calls : List HandlerCall) {start : TaDemoCompilerClient}
    (hname : start.hostPlayerName = hostPlayerName) (hnobody : start.dpConnectedPlayers = ∅)
    (hnohost : start.hostDplayId = 0) (hrun : run (step q) start calls = some c) :
    Players q hostPlayerName calls c := by
  induction calls using List.reverseRecOn generalizing c with
  | nil =>
    obtain rfl := Option.some.inj hrun
    refine ⟨hname, fun d => ?_, fun d hd => ?_⟩
    · rw [hnobody]
      exact iff_of_false Std.ExtTreeSet.not_mem_empty not_since_nil
    · rw [hnohost]
      exact iff_of_false hd.symm not_since_nil
  | append_singleton calls call ih =>
    rw [run_append] at hrun
    obtain ⟨c1, hbefore, hlast⟩ := Option.bind_eq_some_iff.mp hrun
    obtain ⟨c2, hstep, hlast⟩ := Option.bind_eq_some_iff.mp hlast
    obtain rfl := Option.some.inj hlast
    exact players_step (ih hbefore) hstep

end players

/-! ### What is sent -/

section sent

variable {q : Platform} {c : TaDemoCompilerClient}

theorem sendGamePlayerLoading_eq (q : Platform) (c : TaDemoCompilerClient) :
    sendGamePlayerLoading q c c.dpConnectedPlayers =
      sendCommand GamePlayerLoading.ID c.dpConnectedPlayers.size ++
        ((c.hostDplayId :: (q.order c.dpConnectedPlayers).filter (· ≠ c.hostDplayId)).map Arg.int).flatMap
          sendArgument := by
  rw [sendGamePlayerLoading, List.map_cons, List.flatMap_cons, List.flatMap_map, List.append_assoc]

theorem wellFormed_loading {ids : List ℕ} (hids : ∀ d ∈ ids, d < 2 ^ 32) (hcount : ids.length ≤ 10) :
    Command.WellFormed ⟨GamePlayerLoading.ID, ids.map .int⟩ := by
  refine ⟨(by decide : 0 < GamePlayerLoading.ID.length), (by decide : GamePlayerLoading.ID.length ≤ MAX_RECORD_SIZE),
    ?_, ?_⟩
  · rw [List.length_map]
    exact hcount
  · intro a ha
    obtain ⟨d, hd, rfl⟩ := List.mem_map.mp ha
    exact hids d hd

theorem loadingInSync_iff (hids : ∀ d ∈ c.dpConnectedPlayers, d < 2 ^ 32) (hhost : c.hostDplayId < 2 ^ 32)
    (hcount : c.dpConnectedPlayers.size ≤ 10) :
    LoadingInSync q c ↔ c.hostDplayId ∈ c.dpConnectedPlayers := by
  have hmem (d : ℕ) : d ∈ q.order c.dpConnectedPlayers ↔ d ∈ c.dpConnectedPlayers := by
    rw [(q.order_perm _).mem_iff, Std.ExtTreeSet.mem_toList]
  have hlength : (q.order c.dpConnectedPlayers).length = c.dpConnectedPlayers.size := by
    rw [(q.order_perm _).length_eq, Std.ExtTreeSet.length_toList]
  have hothers : ((q.order c.dpConnectedPlayers).filter (· ≠ c.hostDplayId)).Perm
      (c.dpConnectedPlayers.toList.filter (· ≠ c.hostDplayId)) := (q.order_perm _).filter _
  unfold LoadingInSync
  rw [sendGamePlayerLoading_eq]
  generalize hids' : q.order c.dpConnectedPlayers = ids at *
  constructor
  · intro h
    by_contra hout
    have hall : ids.filter (· ≠ c.hostDplayId) = ids :=
      List.filter_eq_self.mpr fun d hd => decide_eq_true fun heq => hout (heq ▸ (hmem d).mp hd)
    rw [hall] at h
    -- the last argument is not announced
    obtain ⟨front, last, hsplit⟩ : ∃ front last, c.hostDplayId :: ids = front ++ [last] :=
      ⟨_, _, (List.dropLast_append_getLast (List.cons_ne_nil _ _)).symm⟩
    have hfront : front.length = c.dpConnectedPlayers.size := by
      have hboth := congrArg List.length hsplit
      rw [List.length_cons, List.length_append, List.length_singleton] at hboth
      omega
    have hwf : Command.WellFormed ⟨GamePlayerLoading.ID, front.map .int⟩ := by
      refine wellFormed_loading (fun d hd => ?_) (by omega)
      have hd : d ∈ c.hostDplayId :: ids := hsplit ▸ List.mem_append_left _ hd
      obtain rfl | hd := List.mem_cons.mp hd
      · exact hhost
      · exact hids d ((hmem d).mp hd)
    have hsent : sendCommand GamePlayerLoading.ID c.dpConnectedPlayers.size ++
        ((c.hostDplayId :: ids).map Arg.int).flatMap sendArgument =
          (⟨GamePlayerLoading.ID, front.map .int⟩ : Command).send.drop 0 ++ sendArgument (.int last) := by
      rw [hsplit, List.map_append, List.flatMap_append, ← List.append_assoc, List.drop_zero, Command.send,
        List.length_map, hfront, List.map_singleton, List.flatMap_singleton]
    obtain ⟨parser, hget, -⟩ := getCommand_done hwf (idle_new.at _) hsent
    obtain ⟨others, parser', hsync, -⟩ := h
    have hleft : sendArgument (.int last) = [] := congrArg (·.2.2) (hget.symm.trans hsync)
    cases hleft
  · intro hin
    have hperm : (c.hostDplayId :: ids.filter (· ≠ c.hostDplayId)).Perm ids := by
      have hnodup : ids.Nodup := by
        rw [← hids', (q.order_perm _).nodup_iff]
        exact c.dpConnectedPlayers.distinct_toList.imp fun hne heq => hne (compare_eq_iff_eq.mpr heq)
      have herase : ids.filter (· ≠ c.hostDplayId) = ids.erase c.hostDplayId := by
        rw [hnodup.erase_eq_filter]
        refine List.filter_congr fun d _ => ?_
        rw [Bool.eq_iff_iff, decide_eq_true_iff, bne_iff_ne]
      rw [herase]
      exact (List.perm_cons_erase ((hmem _).mpr hin)).symm
    have hcount' := hperm.length_eq.trans hlength
    have hwf : Command.WellFormed
        ⟨GamePlayerLoading.ID, (c.hostDplayId :: ids.filter (· ≠ c.hostDplayId)).map .int⟩ := by
      refine wellFormed_loading (fun d hd => hids d ((hmem d).mp (hperm.mem_iff.mp hd))) ?_
      rw [hcount']
      exact hcount
    obtain ⟨parser, hget, -⟩ := getCommand_done hwf (idle_new.at _) (List.append_nil _).symm
    rw [List.drop_zero, Command.send, List.length_map, hcount'] at hget
    exact ⟨_, parser, hget, hothers⟩

end sent

/-! ### Runs -/

/-- The client before the game: both names are known. -/
def named (tafGameId : ℕ) (hostPlayerName localPlayerName : Bytes) : TaDemoCompilerClient :=
  ((new tafGameId).setHostPlayerName hostPlayerName).setLocalPlayerName localPlayerName

/-- Ids have 32 bits. -/
def IdsFit (calls : List HandlerCall) : Prop :=
  ∀ call ∈ calls, ∀ d name, announced call = some (d, name) → d < 2 ^ 32

section runs

variable {q : Platform} {hostPlayerName : Bytes} {calls : List HandlerCall} {d : ℕ}

theorem joinsAsHost_fits (hids : IdsFit calls) {Q : HandlerCall → Prop}
    (h : Since (JoinsAsHost q hostPlayerName d) Q calls) : d ≠ 0 ∧ d < 2 ^ 32 := by
  obtain ⟨pre, call, post, rfl, ⟨-, name, hannounced, -⟩, -⟩ := h
  have hmem : call ∈ pre ++ call :: post := List.mem_append_right _ List.mem_cons_self
  exact ⟨(announced_pos hannounced).1.ne', hids call hmem d name hannounced⟩

theorem joins_fits (hids : IdsFit calls) {Q : HandlerCall → Prop} (h : Since (Joins d) Q calls) :
    d ≠ 0 ∧ d < 2 ^ 32 := by
  obtain ⟨pre, call, post, rfl, ⟨name, hannounced⟩, -⟩ := h
  have hmem : call ∈ pre ++ call :: post := List.mem_append_right _ List.mem_cons_self
  exact ⟨(announced_pos hannounced).1.ne', hids call hmem d name hannounced⟩

/-- After any events, with at most ten players connected, the message is in sync exactly if the
host is one of them. -/
theorem loading_in_sync_iff {tafGameId : ℕ} {localPlayerName : Bytes} {c : TaDemoCompilerClient} (hids : IdsFit calls)
    (hrun : run (step q) (named tafGameId hostPlayerName localPlayerName) calls = some c)
    (hcount : c.dpConnectedPlayers.size ≤ 10) : LoadingInSync q c ↔ HostConnected q hostPlayerName calls := by
  have hplayers : Players q hostPlayerName calls c := players_run calls rfl rfl rfl hrun
  have hhost : c.hostDplayId < 2 ^ 32 := by
    by_cases hzero : c.hostDplayId = 0
    · rw [hzero]
      decide
    · exact (joinsAsHost_fits hids ((hplayers.host _ hzero).mp rfl)).2
  rw [loadingInSync_iff (fun d hd => (joins_fits hids ((hplayers.connected d).mp hd)).2) hhost hcount]
  constructor
  · intro hin
    have hjoined := (hplayers.connected _).mp hin
    exact ⟨c.hostDplayId, (hplayers.host _ (joins_fits hids hjoined).1).mp rfl, hjoined⟩
  · intro h
    obtain ⟨d, hlast, hjoined⟩ := h
    rw [(hplayers.host d (joinsAsHost_fits hids hlast).1).mpr hlast]
    exact (hplayers.connected d).mpr hjoined

end runs

/-- Text is taken as it is, and sets come in the order of their members. -/
def plain : Platform := ⟨id, Std.ExtTreeSet.toList, fun _ => .refl _, 0⟩

/-- The host and another player are seen. -/
def bothSeen : List HandlerCall :=
  [.onDplaySuperEnumPlayerReply 5 [72], .onDplayCreateOrForwardPlayer 8 7 [77]]

theorem loading_in_sync_bothSeen : ∃ c, run (step plain) (named 1 [72] [77]) bothSeen = some c ∧
    LoadingInSync plain c := by
  have hsize : (run (step plain) (named 1 [72] [77]) bothSeen).map (·.dpConnectedPlayers.size) = some 2 := by
    decide +kernel
  obtain ⟨c, hrun, hcount⟩ := Option.map_eq_some_iff.mp hsize
  have hids : IdsFit bothSeen := by
    intro call hcall d name h
    simp only [bothSeen, List.mem_cons, List.not_mem_nil, or_false] at hcall
    obtain rfl | rfl := hcall
    · cases h
      decide
    · cases h
      decide
  have hconnected : HostConnected plain [72] bothSeen := by
    refine ⟨5, ⟨[], _, _, rfl, ⟨by decide, [72], rfl, rfl⟩, ?_⟩, ⟨[], _, _, rfl, ⟨[72], rfl⟩, ?_⟩⟩
    · intro call hcall
      obtain rfl := List.mem_singleton.mp hcall
      rintro ⟨d, -, name, hannounced, hname⟩
      cases hannounced
      exact absurd hname (by decide)
    · intro call hcall
      obtain rfl := List.mem_singleton.mp hcall
      exact fun h => by cases h
  exact ⟨c, hrun, (loading_in_sync_iff hids hrun (by omega)).mpr hconnected⟩

/-- The host has left: one argument is announced and two are sent. -/
theorem loading_host_left : ∃ c,
    run (step plain) (named 1 [72] [77]) (bothSeen ++ [.onDplayDeletePlayer 5]) = some c ∧
      c.dpConnectedPlayers.size ≤ 10 ∧ ¬ LoadingInSync plain c := by
  have hsent : (run (step plain) (named 1 [72] [77]) (bothSeen ++ [.onDplayDeletePlayer 5])).map (fun c =>
      (c.dpConnectedPlayers.size,
        (GpgNetParse.getCommand .new (sendGamePlayerLoading plain c c.dpConnectedPlayers)).2.2)) =
          some (1, [0, 7, 0, 0, 0]) := by decide +kernel
  obtain ⟨c, hrun, hleft⟩ := Option.map_eq_some_iff.mp hsent
  obtain ⟨hsize, hleft⟩ := Prod.mk.inj hleft
  refine ⟨c, hrun, by omega, fun h => ?_⟩
  obtain ⟨others, parser, hget, -⟩ := h
  rw [hget] at hleft
  cases hleft

end TaDemoCompilerClient

end Gpgnet4TA.Tareplay
