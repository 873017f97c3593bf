import Gpgnet4TA.Lib.Window
import Gpgnet4TA.Taflib.DuplicateDetection
import Gpgnet4TA.Tapacket.SubPackets

/-!
# What is fed to the game (`TaReplayer.cpp:894-1083`)

The moves of the demo's packets are filtered before they are sent. A chat message is left out if
its CRC is in a set of recent ones; a queue tells when a CRC leaves the set. `none` says that a move
is too short for what is read from it. The sums of resources are left out.
-/

namespace Gpgnet4TA.Replayer
open Gpgnet4TA.Lib Gpgnet4TA.Taflib Gpgnet4TA.Tapacket SubPacketCode

structure DemoPlayer where
  number : Byte
  name : Bytes
  dpId : ℕ
  originalDpId : ℕ
  ticks : ℕ

inductive PlayOutput where
  | say (fromId : ℕ) (text : Bytes)
  | sendUdp (fromId toId : ℕ) (subpak : Bytes)

structure Playback where
  nochat : Bool
  demoPlayers : List DemoPlayer
  demoTicks : ℕ
  recentChatMessageCrcsExpireyQueue : List UInt32
  recentChatMessageCrcsSet : Std.ExtTreeSet UInt32

namespace Playback

def textBytes (s : String) : Bytes := s.toList.map fun c => UInt8.ofNat c.toNat

/-- The last player with the number of the packet's sender. -/
def senderIndex (r : Playback) (sender : Byte) : Option ℕ :=
  ((List.range r.demoPlayers.length).filter fun i => r.demoPlayers[i]?.map (·.number) = some sender).getLast?

def getDemoPlayerByOriginalDpId (r : Playback) (originalDpId : ℕ) : Option DemoPlayer :=
  r.demoPlayers.find? (·.originalDpId = originalDpId)

/-- The loop that takes from the queue what is too much. -/
def expireChats (set : Std.ExtTreeSet UInt32) : List UInt32 → List UInt32 × Std.ExtTreeSet UInt32
  | [] => ([], set)
  | crc :: rest => if 16 < (crc :: rest).length then expireChats (set.erase crc) rest else (crc :: rest, set)

/-- `FullCRC(move.data(), 65)` -/
def chatCrc (move : Bytes) : Option UInt32 := (sliceAt (move ++ [0]) 0 65).map CRC32.fullCRC

/-- Whether the message is fed, and the replayer afterwards. -/
def playChat (r : Playback) (crc : UInt32) : Bool × Playback :=
  let fed := !r.nochat && !r.recentChatMessageCrcsSet.contains crc
  let (queue, set) := expireChats (r.recentChatMessageCrcsSet.insert crc)
    (r.recentChatMessageCrcsExpireyQueue ++ [crc])
  (fed, { r with recentChatMessageCrcsExpireyQueue := queue, recentChatMessageCrcsSet := set })

/-- `std::showpos` -/
def showpos (n : ℤ) : String := if 0 ≤ n then "+" ++ toString n else toString n

def speedText (code1 code2 : Byte) : String :=
  if code1 = 0 then if code2 = 1 then " paused the game" else " unpaused the game"
  else " set speed to " ++ showpos (code2.toNat - 10)

/-- The clock of the demo follows the slowest of the players who are ahead of it. -/
def advanceTicks (r : Playback) (sender ticks : ℕ) : Playback :=
  let demoPlayers := r.demoPlayers.modify sender fun p => { p with ticks }
  let demoTicks := demoPlayers.foldl (fun t p => if r.demoTicks < p.ticks then min t p.ticks else t) ticks
  { r with demoPlayers, demoTicks }

/-- One move of a packet: whether it is fed, the replayer afterwards, and what is said. -/
def playMove (r : Playback) (sender : ℕ) (player : DemoPlayer) (move : Bytes) :
    Option (Bool × Playback × List PlayOutput) :=
  let code := byteAt move 0
  let buf := move ++ [0]
  if code = CHAT_05 then do
    let crc ← chatCrc move
    let (fed, r) := r.playChat crc
    return (fed, r, [])
  else if code = GIVE_UNIT_14 then some (false, r, [])
  else if code = SPEED_19 then do
    let code1 ← buf[1]?
    let code2 ← buf[2]?
    return (false, r, [.say player.dpId (player.name ++ textBytes (speedText code1 code2))])
  else if code = REJECT_1B then do
    let originalDpId ← u32At buf 1
    match r.getDemoPlayerByOriginalDpId originalDpId with
    | some rejectee => return (true, r, [.say player.dpId (player.name ++ textBytes " rejected " ++ rejectee.name)])
    | none => return (true, r, [])
  else if code = UNIT_STAT_AND_MOVE_2C then do
    let ticks ← u32At buf 3
    return (true, r.advanceTicks sender ticks, [])
  else if code = ALLY_CHAT_F9 then
    -- a shorter one makes the length of the text huge: `std::string` throws, `timerEvent` catches it,
    -- and the packet is played again at every tick; such a demo has no run here
    if 9 ≤ move.length then some (false, r, []) else none
  else if code = PLAYER_RESOURCE_INFO_28 then (u32At buf 46).map fun _ => (true, r, [])
  else if code = SHARE_RESOURCES_16 then (u32At buf 13).map fun _ => (true, r, [])
  else some (true, r, [])

/-- The moves of a packet, each with whether it is fed. -/
def playMoves (sender : ℕ) (player : DemoPlayer) : Playback → List Bytes →
    Option (Playback × List (Bytes × Bool) × List PlayOutput)
  | r, [] => some (r, [], [])
  | r, move :: moves => do
    let (fed, r, outs) ← r.playMove sender player move
    let (r, log, more) ← playMoves sender player r moves
    return (r, (move, fed) :: log, outs ++ more)

structure GamePacket where
  sender : Byte
  moves : List Bytes

def filteredMoves (log : List (Bytes × Bool)) : Bytes := (log.filter (·.2)).flatMap (·.1)

def playPacket (r : Playback) (packet : GamePacket) : Option (Playback × List (Bytes × Bool) × List PlayOutput) :=
  match r.senderIndex packet.sender with
  | none => some (r, [], [])
  | some i => do
    let player ← r.demoPlayers[i]?
    let (r, log, outs) ← playMoves i player r packet.moves
    if 0 < (filteredMoves log).length then return (r, log, outs ++ [.sendUdp player.dpId 0 (filteredMoves log)])
    else return (r, log, outs)

/-- The pending packets, one after the other. -/
def playPackets : Playback → List GamePacket → Option (Playback × List (Bytes × Bool) × List PlayOutput)
  | r, [] => some (r, [], [])
  | r, packet :: packets => do
    let (r, log, outs) ← r.playPacket packet
    let (r, log', more) ← playPackets r packets
    return (r, log ++ log', outs ++ more)

/-! ### What the set remembers -/

/-- The CRC is in the set after `past`: no copy of it has left the queue since the last one came. -/
def Remembered (past : List UInt32) (crc : UInt32) : Prop :=
  ∃ k : ℕ, past[k]? = some crc ∧ ∀ j : ℕ, past[j]? = some crc → j ≤ k ∧ (past.length ≤ j + 16 ∨ j + 16 < k)

/-- The last copy is among the last 16, and another one has left the queue since it came. -/
def LeftSince (past : List UInt32) (crc : UInt32) : Prop :=
  ∃ j k : ℕ, past[j]? = some crc ∧ past[k]? = some crc ∧ (∀ i : ℕ, past[i]? = some crc → i ≤ k) ∧
    j + 16 < past.length ∧ past.length ≤ k + 16 ∧ k ≤ j + 16

section remembered

variable {past : List UInt32} {crc c : UInt32}

theorem mem_rtake_iff : crc ∈ past.rtake 16 ↔ ∃ k : ℕ, past[k]? = some crc ∧ past.length ≤ k + 16 := by
  rw [List.rtake, List.mem_iff_getElem?]
  constructor
  · intro h
    obtain ⟨i, hi⟩ := h
    rw [List.getElem?_drop] at hi
    exact ⟨past.length - 16 + i, hi, by omega⟩
  · intro h
    obtain ⟨k, hk, hlen⟩ := h
    refine ⟨k - (past.length - 16), ?_⟩
    rw [List.getElem?_drop, show past.length - 16 + (k - (past.length - 16)) = k by omega]
    exact hk

theorem exists_last (h : crc ∈ past) :
    ∃ k : ℕ, past[k]? = some crc ∧ ∀ i : ℕ, past[i]? = some crc → i ≤ k := by
  induction past with
  | nil => cases h
  | cons x past ih =>
    by_cases hin : crc ∈ past
    · obtain ⟨k, hk, hlast⟩ := ih hin
      refine ⟨k + 1, hk, fun i hi => ?_⟩
      cases i with
      | zero => omega
      | succ i => exact Nat.succ_le_succ (hlast i hi)
    · have heq : crc = x := (List.mem_cons.mp h).resolve_right hin
      refine ⟨0, by rw [heq]; rfl, fun i hi => ?_⟩
      cases i with
      | zero => exact le_rfl
      | succ i =>
        rw [List.getElem?_cons_succ] at hi
        exact absurd (List.mem_of_getElem? hi) hin

/-- The set and the queue agree on a CRC unless a copy of it has left since. -/
theorem remembered_iff : (¬ Remembered past crc ↔ crc ∉ past.rtake 16) ↔ ¬ LeftSince past crc := by
  have hwindow : Remembered past crc → crc ∈ past.rtake 16 := by
    intro h
    obtain ⟨k, hk, hall⟩ := h
    have hself := (hall k hk).2
    exact mem_rtake_iff.mpr ⟨k, hk, by omega⟩
  constructor
  · intro h hleft
    obtain ⟨j, k, hj, hk, hlast, hgone, hin, hsince⟩ := hleft
    have hrem : Remembered past crc := by
      by_contra hno
      exact h.mp hno (mem_rtake_iff.mpr ⟨k, hk, hin⟩)
    obtain ⟨k', hk', hall⟩ := hrem
    have hsame := hlast k' hk'
    obtain ⟨hle, hwhen⟩ := hall j hj
    omega
  · intro h
    refine ⟨fun hno hin => ?_, fun hout hrem => hout (hwindow hrem)⟩
    obtain ⟨i, hi, hlen⟩ := mem_rtake_iff.mp hin
    obtain ⟨k, hk, hlast⟩ := exists_last (List.mem_of_getElem? hi)
    have hik := hlast i hi
    refine hno ⟨k, hk, fun j hj => ⟨hlast j hj, ?_⟩⟩
    by_contra hwhen
    exact h ⟨j, k, hj, hk, hlast, by omega, by omega, by omega⟩

theorem remembered_concat : Remembered (past ++ [c]) crc ↔
    (crc = c ∨ Remembered past crc) ∧ ¬ (16 ≤ past.length ∧ past[past.length - 16]? = some crc) := by
  have hold {i : ℕ} (hi : i < past.length) : (past ++ [c])[i]? = past[i]? := List.getElem?_append_left hi
  have hnew : (past ++ [c])[past.length]? = some c := by
    rw [List.getElem?_append_right le_rfl, Nat.sub_self]
    rfl
  have hbound {i : ℕ} {x : UInt32} (hi : (past ++ [c])[i]? = some x) : i ≤ past.length := by
    have hlt := (List.getElem?_eq_some_iff.mp hi).1
    rw [List.length_append, List.length_singleton] at hlt
    omega
  have hpast {i : ℕ} {x : UInt32} (hi : past[i]? = some x) : i < past.length := (List.getElem?_eq_some_iff.mp hi).1
  constructor
  · intro h
    obtain ⟨k, hk, hall⟩ := h
    rw [List.length_append, List.length_singleton] at hall
    have hkn := hbound hk
    refine ⟨?_, fun hgone => ?_⟩
    · by_cases hlast : k = past.length
      · rw [hlast, hnew] at hk
        exact .inl (Option.some.inj hk).symm
      · have hlt : k < past.length := by omega
        rw [hold hlt] at hk
        refine .inr ⟨k, hk, fun j hj => ?_⟩
        obtain ⟨hle, hwhen⟩ := hall j (by rw [hold (hpast hj)]; exact hj)
        exact ⟨hle, by omega⟩
    · obtain ⟨hlong, hleft⟩ := hgone
      obtain ⟨-, hwhen⟩ := hall (past.length - 16) (by rw [hold (by omega)]; exact hleft)
      omega
  · intro h
    obtain ⟨hor, hstays⟩ := h
    have hwhen {j : ℕ} (hj : past[j]? = some crc) : j + 16 ≠ past.length := by
      intro heq
      refine hstays ⟨by omega, ?_⟩
      rw [show past.length - 16 = j by omega]
      exact hj
    by_cases heq : crc = c
    · subst heq
      refine ⟨past.length, hnew, fun j hj => ⟨hbound hj, ?_⟩⟩
      rw [List.length_append, List.length_singleton]
      by_cases hlast : j = past.length
      · omega
      · have hlt : j < past.length := by
          have hle := hbound hj
          omega
        rw [hold hlt] at hj
        have hne := hwhen hj
        omega
    · obtain ⟨k, hk, hall⟩ := hor.resolve_left heq
      refine ⟨k, by rw [hold (hpast hk)]; exact hk, fun j hj => ?_⟩
      rw [List.length_append, List.length_singleton]
      have hlt : j < past.length := by
        have hle := hbound hj
        by_contra hno
        rw [show j = past.length by omega, hnew] at hj
        exact heq (Option.some.inj hj).symm
      rw [hold hlt] at hj
      obtain ⟨hle, hor⟩ := hall j hj
      have hne := hwhen hj
      exact ⟨hle, by omega⟩

end remembered

/-- Queue and set after chat messages with the CRCs `past`. -/
structure Recent (r : Playback) (past : List UInt32) : Prop where
  chat : r.nochat = false
  queue : r.recentChatMessageCrcsExpireyQueue = past.rtake 16
  set : ∀ crc, r.recentChatMessageCrcsSet.contains crc = true ↔ Remembered past crc

section window

variable {r r' : Playback} {past : List UInt32}

theorem contains_insert (set : Std.ExtTreeSet UInt32) (crc c : UInt32) :
    (set.insert crc).contains c = true ↔ c = crc ∨ set.contains c = true := by
  rw [Std.ExtTreeSet.contains_insert, Bool.or_eq_true, beq_iff_eq, Std.LawfulEqOrd.compare_eq_iff_eq]
  exact or_congr_left eq_comm

theorem contains_erase (set : Std.ExtTreeSet UInt32) (crc c : UInt32) :
    (set.erase crc).contains c = true ↔ set.contains c = true ∧ ¬ crc = c := by
  rw [Std.ExtTreeSet.contains_erase, Bool.and_eq_true, bne_iff_ne, ne_eq, Std.LawfulEqOrd.compare_eq_iff_eq]
  exact and_comm

theorem expireChats_short {set : Std.ExtTreeSet UInt32} {queue : List UInt32} (h : queue.length ≤ 16) :
    expireChats set queue = (queue, set) := by
  cases queue with
  | nil => rfl
  | cons crc rest => exact if_neg (by omega)

theorem Recent.playChat (h : r.Recent past) (crc : UInt32) :
    ((r.playChat crc).1 = true ↔ ¬ Remembered past crc) ∧ (r.playChat crc).2.Recent (past ++ [crc]) := by
  have hfed : (r.playChat crc).1 = true ↔ ¬ Remembered past crc := by
    rw [← h.set]
    unfold Playback.playChat
    simp only [h.chat, Bool.not_false, Bool.true_and, Bool.not_eq_true', Bool.not_eq_true]
  have hlength : (past.rtake 16).length = min past.length 16 := length_rtake 16 past
  refine ⟨hfed, ?_⟩
  by_cases hlong : 16 ≤ past.length
  · obtain ⟨first, rest, hfirst, hrest⟩ : ∃ first rest, past[past.length - 16]? = some first ∧
        past.rtake 16 = first :: rest := by
      have hin : past.length - 16 < past.length := by omega
      exact ⟨past[past.length - 16], past.drop (past.length - 16 + 1), List.getElem?_eq_getElem hin,
        List.drop_eq_getElem_cons hin⟩
    have hqueue : expireChats (r.recentChatMessageCrcsSet.insert crc)
        (r.recentChatMessageCrcsExpireyQueue ++ [crc]) =
          (rest ++ [crc], (r.recentChatMessageCrcsSet.insert crc).erase first) := by
      rw [hrest, List.length_cons] at hlength
      have hlen : (rest ++ [crc]).length = 16 := by
        rw [List.length_append, List.length_singleton]
        omega
      rw [h.queue, hrest, List.cons_append, expireChats, if_pos (by rw [List.length_cons]; omega),
        expireChats_short hlen.le]
    have hnext : rest ++ [crc] = (past ++ [crc]).rtake 16 := by
      rw [← rtake_push, hrest, List.cons_append, rtake_cons, rtake_of_le]
      · rw [hrest, List.length_cons] at hlength
        rw [List.length_append, List.length_singleton]
        omega
      · rw [hrest, List.length_cons] at hlength
        rw [List.length_cons, List.length_append, List.length_singleton]
        omega
    unfold Playback.playChat
    simp only [hqueue]
    refine ⟨h.chat, hnext, fun c => ?_⟩
    rw [contains_erase, contains_insert, h.set, remembered_concat, hfirst, Option.some.injEq]
    exact and_congr_right fun _ => not_congr (and_iff_right hlong).symm
  · have hqueue : expireChats (r.recentChatMessageCrcsSet.insert crc)
        (r.recentChatMessageCrcsExpireyQueue ++ [crc]) =
          (r.recentChatMessageCrcsExpireyQueue ++ [crc], r.recentChatMessageCrcsSet.insert crc) := by
      refine expireChats_short ?_
      rw [h.queue, List.length_append, List.length_singleton]
      omega
    unfold Playback.playChat
    simp only [hqueue]
    refine ⟨h.chat, ?_, fun c => ?_⟩
    · rw [h.queue, rtake_of_le (by omega), rtake_of_le]
      rw [List.length_append, List.length_singleton]
      omega
    · rw [contains_insert, h.set, remembered_concat]
      exact (and_iff_left fun hgone => hlong hgone.1).symm

end window

/-! ### Runs -/

/-- The chat messages among moves that were played: CRC, and whether it was fed. -/
def chats (log : List (Bytes × Bool)) : List (UInt32 × Bool) := log.filterMap fun l =>
  if byteAt l.1 0 = CHAT_05 then (chatCrc l.1).map fun crc => (crc, l.2) else none

/-- Each message is fed if it is not remembered after those before it. -/
inductive Explained : List UInt32 → List (UInt32 × Bool) → Prop
  | nil (past : List UInt32) : Explained past []
  | cons {past : List UInt32} {crc : UInt32} {fed : Bool} {rest : List (UInt32 × Bool)}
      (hfed : fed = true ↔ ¬ Remembered past crc) (hrest : Explained (past ++ [crc]) rest) :
      Explained past ((crc, fed) :: rest)

section runs

variable {r r' : Playback} {past : List UInt32} {log : List (Bytes × Bool)} {outs : List PlayOutput}

theorem Explained.append {first more : List (UInt32 × Bool)} (h : Explained past first)
    (hmore : Explained (past ++ first.map (·.1)) more) : Explained past (first ++ more) := by
  induction h with
  | nil past =>
    rw [List.map_nil, List.append_nil] at hmore
    exact hmore
  | cons hfed _ ih =>
    rw [List.map_cons, List.append_cons] at hmore
    exact .cons hfed (ih hmore)

theorem Explained.at {pre post : List (UInt32 × Bool)} {crc : UInt32} {fed : Bool}
    (h : Explained past (pre ++ (crc, fed) :: post)) :
    fed = true ↔ ¬ Remembered (past ++ pre.map (·.1)) crc := by
  induction pre generalizing past with
  | nil =>
    cases h with
    | cons hfed =>
      rw [List.map_nil, List.append_nil]
      exact hfed
  | cons x pre ih =>
    cases h with
    | cons _ hrest =>
      rw [List.map_cons, List.append_cons]
      exact ih hrest

/-- Moves of a state that goes from `past` to what is logged. -/
structure Told (past : List UInt32) (r' : Playback) (log : List (Bytes × Bool)) : Prop where
  recent : r'.Recent (past ++ (chats log).map (·.1))
  explained : Explained past (chats log)

theorem Told.nil (h : r.Recent past) : Told past r [] := by
  refine ⟨?_, .nil past⟩
  rw [show chats [] = [] from rfl, List.map_nil, List.append_nil]
  exact h

theorem Told.append {log' : List (Bytes × Bool)} (h : Told past r log)
    (h' : Told (past ++ (chats log).map (·.1)) r' log') : Told past r' (log ++ log') := by
  have hsplit : chats (log ++ log') = chats log ++ chats log' := List.filterMap_append
  refine ⟨?_, ?_⟩
  · rw [hsplit, List.map_append, ← List.append_assoc]
    exact h'.recent
  · rw [hsplit]
    exact h.explained.append h'.explained

theorem playMove_other {sender : ℕ} {player : DemoPlayer} {move : Bytes} {fed : Bool}
    (hcode : byteAt move 0 ≠ CHAT_05) (h : r.playMove sender player move = some (fed, r', outs)) :
    r'.nochat = r.nochat ∧ r'.recentChatMessageCrcsExpireyQueue = r.recentChatMessageCrcsExpireyQueue ∧
      r'.recentChatMessageCrcsSet = r.recentChatMessageCrcsSet := by
  unfold playMove at h
  simp only [if_neg hcode] at h
  split at h
  · cases h
    exact ⟨rfl, rfl, rfl⟩
  split at h
  · obtain ⟨code1, -, h⟩ := Option.bind_eq_some_iff.mp h
    obtain ⟨code2, -, h⟩ := Option.bind_eq_some_iff.mp h
    cases h
    exact ⟨rfl, rfl, rfl⟩
  split at h
  · obtain ⟨originalDpId, -, h⟩ := Option.bind_eq_some_iff.mp h
    split at h
    · cases h
      exact ⟨rfl, rfl, rfl⟩
    · cases h
      exact ⟨rfl, rfl, rfl⟩
  split at h
  · obtain ⟨ticks, -, h⟩ := Option.bind_eq_some_iff.mp h
    cases h
    exact ⟨rfl, rfl, rfl⟩
  split at h
  · split at h
    · cases h
      exact ⟨rfl, rfl, rfl⟩
    · cases h
  split at h
  · obtain ⟨_, -, h⟩ := Option.map_eq_some_iff.mp h
    cases h
    exact ⟨rfl, rfl, rfl⟩
  split at h
  · obtain ⟨_, -, h⟩ := Option.map_eq_some_iff.mp h
    cases h
    exact ⟨rfl, rfl, rfl⟩
  · cases h
    exact ⟨rfl, rfl, rfl⟩

theorem told_move {sender : ℕ} {player : DemoPlayer} {move : Bytes} {fed : Bool} (hr : r.Recent past)
    (h : r.playMove sender player move = some (fed, r', outs)) : Told past r' [(move, fed)] := by
  by_cases hcode : byteAt move 0 = CHAT_05
  · unfold playMove at h
    simp only [if_pos hcode] at h
    obtain ⟨crc, hcrc, h⟩ := Option.bind_eq_some_iff.mp h
    have hchats : chats [(move, fed)] = [(crc, fed)] := by
      simp only [chats, List.filterMap_cons, hcode, if_true, hcrc, Option.map_some, List.filterMap_nil]
    obtain ⟨hfed, hrecent⟩ := hr.playChat crc
    cases h
    refine ⟨?_, ?_⟩
    · rw [hchats]
      exact hrecent
    · rw [hchats]
      exact .cons hfed (.nil _)
  · have hchats : chats [(move, fed)] = [] := by
      simp only [chats, List.filterMap_cons, hcode, if_false, List.filterMap_nil]
    obtain ⟨hnochat, hqueue, hset⟩ := playMove_other hcode h
    refine ⟨?_, by rw [hchats]; exact .nil past⟩
    rw [hchats, List.map_nil, List.append_nil]
    exact ⟨hnochat.trans hr.chat, hqueue.trans hr.queue, fun crc => by rw [hset, hr.set]⟩

theorem told_moves {sender : ℕ} {player : DemoPlayer} (moves : List Bytes) (hr : r.Recent past)
    (h : playMoves sender player r moves = some (r', log, outs)) : Told past r' log := by
  induction moves generalizing r past log outs with
  | nil =>
    cases h
    exact .nil hr
  | cons move moves ih =>
    obtain ⟨⟨fed, r1, first⟩, hmove, h⟩ := Option.bind_eq_some_iff.mp h
    obtain ⟨⟨r2, rest, more⟩, hmoves, h⟩ := Option.bind_eq_some_iff.mp h
    obtain ⟨rfl, rfl, -⟩ : r2 = r' ∧ (move, fed) :: rest = log ∧ first ++ more = outs := by
      simpa using h
    have hfirst := told_move hr hmove
    exact hfirst.append (ih hfirst.recent hmoves)

theorem told_packet {packet : GamePacket} (hr : r.Recent past) (h : r.playPacket packet = some (r', log, outs)) :
    Told past r' log := by
  unfold playPacket at h
  split at h
  · cases h
    exact .nil hr
  · obtain ⟨player, -, h⟩ := Option.bind_eq_some_iff.mp h
    obtain ⟨⟨r1, log1, outs1⟩, hmoves, h⟩ := Option.bind_eq_some_iff.mp h
    have htold := told_moves _ hr hmoves
    dsimp only at h
    split at h
    · cases h
      exact htold
    · cases h
      exact htold

theorem told_packets (packets : List GamePacket) (hr : r.Recent past)
    (h : playPackets r packets = some (r', log, outs)) : Told past r' log := by
  induction packets generalizing r past log outs with
  | nil =>
    cases h
    exact .nil hr
  | cons packet packets ih =>
    obtain ⟨⟨r1, log1, first⟩, hpacket, h⟩ := Option.bind_eq_some_iff.mp h
    obtain ⟨⟨r2, rest, more⟩, hpackets, h⟩ := Option.bind_eq_some_iff.mp h
    obtain ⟨rfl, rfl, -⟩ : r2 = r' ∧ log1 ++ rest = log ∧ first ++ more = outs := by
      simpa using h
    have hfirst := told_packet hr hpacket
    exact hfirst.append (ih hfirst.recent hpackets)

/-- Before any chat message. -/
structure Silent (r : Playback) : Prop where
  chat : r.nochat = false
  queue : r.recentChatMessageCrcsExpireyQueue = []
  set : r.recentChatMessageCrcsSet = ∅

theorem Silent.recent (h : r.Silent) : r.Recent [] := by
  refine ⟨h.chat, h.queue, fun crc => ?_⟩
  rw [h.set, Std.ExtTreeSet.contains_empty]
  refine iff_of_false Bool.false_ne_true fun hrem => ?_
  obtain ⟨k, hk, -⟩ := hrem
  cases hk

/-- Whether a message is fed is decided by the 16 messages before it, exactly if no copy of it has
left the queue since the last one came. -/
theorem chat_fed_iff {packets : List GamePacket} (hr : r.Silent)
    (h : playPackets r packets = some (r', log, outs)) {pre post : List (UInt32 × Bool)} {crc : UInt32} {fed : Bool}
    (hlog : chats log = pre ++ (crc, fed) :: post) :
    ((fed = true ↔ crc ∉ (pre.map (·.1)).rtake 16) ↔ ¬ LeftSince (pre.map (·.1)) crc) := by
  have hexplained := (told_packets packets hr.recent h).explained
  rw [hlog] at hexplained
  have hfed := hexplained.at
  rw [List.nil_append] at hfed
  rw [hfed]
  exact remembered_iff

def watched : Playback := ⟨false, [⟨1, [65], 7, 8, 0⟩], 0, [], ∅⟩

def chatMove (text : Byte) : Bytes := CHAT_05 :: List.replicate 64 text

/-- One message twice, then another one 15 times, then the first one again. -/
def repeatedChats : List GamePacket :=
  [⟨1, chatMove 0 :: chatMove 0 :: List.replicate 15 (chatMove 1) ++ [chatMove 0]⟩]

theorem chat_fed_second : ∃ r' log outs crc post, playPackets watched repeatedChats = some (r', log, outs) ∧
    chats log = [(crc, true)] ++ (crc, false) :: post ∧
    ((false = true ↔ crc ∉ [crc].rtake 16) ↔ ¬ LeftSince [crc] crc) := by
  have hplay : (playPackets watched repeatedChats).map (fun x => (chats x.2.1).take 2) =
      some [(4078822602, true), (4078822602, false)] := by decide +kernel
  obtain ⟨⟨r', log, outs⟩, hrun, hlog⟩ := Option.map_eq_some_iff.mp hplay
  have hsplit : chats log = [(4078822602, true)] ++ (4078822602, false) :: (chats log).drop 2 := by
    conv_lhs => rw [← List.take_append_drop 2 (chats log)]
    rw [show (chats log).take 2 = _ from hlog]
    rfl
  exact ⟨r', log, outs, 4078822602, _, hrun, hsplit, chat_fed_iff ⟨rfl, rfl, rfl⟩ hrun hsplit⟩

/-- The last message is fed, although the second one was the same and is 16 messages back. -/
theorem repeated_chat_fed : ¬ ∀ (r r' : Playback) (packets : List GamePacket) (log : List (Bytes × Bool))
    (outs : List PlayOutput), r.Silent → playPackets r packets = some (r', log, outs) →
      ∀ (pre post : List (UInt32 × Bool)) (crc : UInt32) (fed : Bool), chats log = pre ++ (crc, fed) :: post →
        (fed = true ↔ crc ∉ (pre.map (·.1)).rtake 16) := by
  intro h
  have hplay : (playPackets watched repeatedChats).map (fun x => ((chats x.2.1).drop 17,
      decide (4078822602 ∈ (((chats x.2.1).take 17).map (·.1)).rtake 16))) =
        some ([(4078822602, true)], true) := by decide +kernel
  obtain ⟨⟨r', log, outs⟩, hrun, hlog⟩ := Option.map_eq_some_iff.mp hplay
  obtain ⟨hlast, hin⟩ := Prod.mk.inj hlog
  have hsplit : chats log = (chats log).take 17 ++ (4078822602, true) :: [] := by
    conv_lhs => rw [← List.take_append_drop 17 (chats log)]
    rw [hlast]
  exact (h watched r' repeatedChats log outs ⟨rfl, rfl, rfl⟩ hrun _ _ _ _ hsplit).mp rfl (of_decide_eq_true hin)

end runs

end Playback

end Gpgnet4TA.Replayer
