import Gpgnet4TA.Tafnet.HeaderWalks
import Gpgnet4TA.Tafnet.PortRouting
import Gpgnet4TA.Tapacket.WireCodec

/-!
# Copies of a game packet

A packet for everybody is sent once to each peer, with the same bytes. While the game runs the
parser takes the copies for duplicates and finds no subpackets in them, so that they are protected
only if they are large or the game has just begun.
-/

namespace Gpgnet4TA.Tafnet
open Gpgnet4TA.Lib Gpgnet4TA.Taflib Gpgnet4TA.Tapacket TAPacketParser

/-! ### Packets of the game -/

/-- A packet of the game with its two ids and its encrypted payload: without a DirectPlay header,
or behind one whose action string is the sender's id. -/
inductive GamePacket (P : Bytes) : ℕ → ℕ → Bytes → Prop where
  | bare {id1 id2 : ℕ} (hok : DPHeader.looksOk (P ++ [0]) = some false) (hlen : 8 < P.length)
    (h1 : u32At P 0 = some id1) (h2 : u32At P 4 = some id2) : GamePacket P id1 id2 (P.drop 8)
  | wrapped {action : Bytes} (hok : DPHeader.looksOk (P ++ [0]) = some true)
    (hsize : DPHeader.size (P ++ [0]) = some P.length)
    (haction : DPHeader.actionstring (P ++ [0]) = some action) (hne : action ≠ playString) :
    GamePacket P (leVal action) 0 (P.drop sizeofDPHeader)

/-- The payload's checksum is right, one of its subpackets is a well-formed one of a code that is
protected, and the last game tick in it is `tick`. -/
def Carries (payload : Bytes) (tick : ℕ) : Prop :=
  ∃ subpaks parsed, decodeTaPacket payload = some (some subpaks) ∧
    subpaks.foldlM parseSubpak .new = some parsed ∧ parsed.progressTicks = tick ∧
    ∃ s ∈ subpaks, getExpectedSubPacketSize s = some s.length ∧ s.length ≠ 0 ∧
      byteAt s 0 ∈ TafnetGameNode.protectedSubpaks

section packet

variable {P payload : Bytes} {id1 other tick : ℕ}

theorem GamePacket.header (h : GamePacket P id1 other payload) :
    ∃ ok, DPHeader.looksOk (P ++ [0]) = some ok ∧ 0 < P.length ∧ (ok = true → sizeofDPHeader ≤ P.length) := by
  cases h with
  | bare hok hlen => exact ⟨false, hok, by omega, nofun⟩
  | wrapped hok hsize =>
    obtain ⟨size, hsize', hge⟩ := size_of_looksOk hok
    rw [hsize', Option.some.injEq] at hsize
    rw [hsize] at hge
    exact ⟨true, hok, lt_of_lt_of_le (by decide) hge, fun _ => hge⟩

theorem parseGameData_packet (h : GamePacket P id1 other payload) (p : TAPacketParser) :
    p.parseGameData true P = parseTaPacket { p with parsedSubPacketCodes := [] } id1 other true payload := by
  obtain ⟨ok, hok', hpos, hge⟩ := h.header
  unfold parseGameData
  rw [parseLoop, if_neg (by omega)]
  cases h with
  | bare hok hlen h1 h2 =>
    simp only [hok, hlen, h1, h2, Option.bind_eq_bind, Option.bind_some, Bool.not_false, true_and, if_true]
  | @wrapped action hok hsize haction hne =>
    have hle : sizeofDPHeader ≤ P.length := hge (Option.some.inj (hok'.symm.trans hok))
    have hslice : sliceAt (P ++ [0]) sizeofDPHeader (P.length - sizeofDPHeader) =
        some (P.drop sizeofDPHeader) := by
      refine sliceAt_eq_some.mpr ⟨by rw [List.length_append]; omega, ?_⟩
      rw [List.drop_append_of_le_length hle, List.take_left' (by rw [List.length_drop])]
    have hend (buf : Bytes) (q : TAPacketParser) : parseLoop true P P.length 0 buf q = some q := by
      obtain ⟨n, hn⟩ : ∃ n, P.length = n + 1 := ⟨P.length - 1, by omega⟩
      rw [hn, parseLoop, if_pos rfl]
    simp only [hok, hsize, haction, hslice, if_neg hne, Option.bind_eq_bind, Option.bind_some, Bool.not_true,
      Bool.false_eq_true, false_and, if_false, Nat.sub_self, hend, Option.bind_fun_some]

/-! ### What the parser makes of it -/

/-- `q` parses as `p` does, at tick `tick` or later, and has the codes of `p`. -/
structure Follows (tick : ℕ) (d : DuplicateDetection) (p q : TAPacketParser) : Prop where
  ticks : q.progressTicks = max p.progressTicks tick
  detection : q.taDuplicateDetection = d
  codes : ∀ code ∈ p.parsedSubPacketCodes, code ∈ q.parsedSubPacketCodes

variable {d : DuplicateDetection} {p p' q : TAPacketParser} {s : Bytes}

/-- The game tick in a subpacket, 0 if it has none. -/
def subpakTick (s : Bytes) : Option ℕ :=
  if byteAt s 0 = SubPacketCode.UNIT_STAT_AND_MOVE_2C then u32At (s ++ [0]) 3 else some 0

theorem parseSubpak_eq (p : TAPacketParser) (s : Bytes) :
    p.parseSubpak s = (getExpectedSubPacketSize s).bind fun expectedSize =>
      if expectedSize = 0 ∨ s.length ≠ expectedSize then some p
      else (subpakTick s).map fun tick => { p with
        parsedSubPacketCodes := p.parsedSubPacketCodes.insert (byteAt s 0)
        progressTicks := max tick p.progressTicks } := by
  unfold parseSubpak subpakTick
  congr 1
  funext expectedSize
  by_cases hbad : expectedSize = 0 ∨ s.length ≠ expectedSize
  · rw [if_pos hbad, if_pos hbad]
    rfl
  · rw [if_neg hbad, if_neg hbad]
    by_cases hmove : byteAt s 0 = SubPacketCode.UNIT_STAT_AND_MOVE_2C
    · simp only [if_pos hmove]
      cases u32At (s ++ [0]) 3 <;> rfl
    · simp only [if_neg hmove, Option.map_some, Nat.zero_max]
      rfl

theorem Follows.parseSubpak (h : Follows tick d p q) (hp : p.parseSubpak s = some p') :
    ∃ q', q.parseSubpak s = some q' ∧ Follows tick d p' q' := by
  rw [parseSubpak_eq] at hp ⊢
  obtain ⟨expectedSize, hsize, hp⟩ := Option.bind_eq_some_iff.mp hp
  rw [hsize, Option.bind_some]
  split at hp
  · rename_i hbad
    cases hp
    exact ⟨q, if_pos hbad, h⟩
  · rename_i hgood
    obtain ⟨t, ht, rfl⟩ := Option.map_eq_some_iff.mp hp
    rw [if_neg hgood, ht, Option.map_some]
    refine ⟨_, rfl, ?_, h.detection, fun c hc => ?_⟩
    · show max t q.progressTicks = max (max t p.progressTicks) tick
      rw [h.ticks, max_assoc]
    · rw [List.mem_insert_iff] at hc ⊢
      exact hc.imp_right (h.codes c)

theorem Follows.parseSubpaks {subpaks : List Bytes} (h : Follows tick d p q)
    (hp : subpaks.foldlM TAPacketParser.parseSubpak p = some p') :
    ∃ q', subpaks.foldlM TAPacketParser.parseSubpak q = some q' ∧ Follows tick d p' q' := by
  induction subpaks generalizing p q with
  | nil =>
    cases hp
    exact ⟨q, rfl, h⟩
  | cons s subpaks ih =>
    rw [List.foldlM_cons] at hp
    obtain ⟨p1, hp1, hp⟩ := Option.bind_eq_some_iff.mp hp
    obtain ⟨q1, hq1, h1⟩ := h.parseSubpak hp1
    obtain ⟨q', hq', h'⟩ := ih h1 hp
    exact ⟨q', by rw [List.foldlM_cons, hq1]; exact hq', h'⟩

theorem codes_of_parseSubpaks {subpaks : List Bytes} (hp : subpaks.foldlM parseSubpak p = some p') :
    (∀ code ∈ p.parsedSubPacketCodes, code ∈ p'.parsedSubPacketCodes) ∧
      ∀ s ∈ subpaks, getExpectedSubPacketSize s = some s.length → s.length ≠ 0 →
        byteAt s 0 ∈ p'.parsedSubPacketCodes := by
  induction subpaks generalizing p with
  | nil =>
    cases hp
    exact ⟨fun _ h => h, nofun⟩
  | cons s subpaks ih =>
    rw [List.foldlM_cons] at hp
    obtain ⟨p1, hp1, hp⟩ := Option.bind_eq_some_iff.mp hp
    obtain ⟨hold, hnew⟩ := ih hp
    rw [parseSubpak_eq] at hp1
    obtain ⟨expectedSize, hsize, hp1⟩ := Option.bind_eq_some_iff.mp hp1
    split at hp1
    · rename_i hbad
      cases hp1
      refine ⟨hold, fun x hx hlen hne => ?_⟩
      rcases List.mem_cons.mp hx with rfl | hx
      · have heq := Option.some.inj (hsize.symm.trans hlen)
        exact absurd hbad (not_or.mpr ⟨heq ▸ hne, not_not.mpr heq.symm⟩)
      · exact hnew x hx hlen hne
    · obtain ⟨t, -, rfl⟩ := Option.map_eq_some_iff.mp hp1
      refine ⟨fun c hc => hold c (List.mem_insert_iff.mpr (.inr hc)), fun x hx hlen hne => ?_⟩
      rcases List.mem_cons.mp hx with rfl | hx
      · exact hold _ (List.mem_insert_iff.mpr (.inl rfl))
      · exact hnew x hx hlen hne

theorem isDuplicate_fields (p : TAPacketParser) (id1 other : ℕ) (payload : Bytes) :
    (p.isDuplicate id1 other payload).2.progressTicks = p.progressTicks ∧
      (p.isDuplicate id1 other payload).2.parsedSubPacketCodes = p.parsedSubPacketCodes := by
  unfold isDuplicate
  split <;> exact ⟨rfl, rfl⟩

/-- A packet that is no duplicate is parsed, and its protected code is found. -/
theorem parse_fresh (hcarries : Carries payload tick) {id1 other : ℕ}
    (hfresh : (p.isDuplicate id1 other payload).1 = false) :
    ∃ q, p.parseTaPacket id1 other true payload = some q ∧ q.progressTicks = max tick p.progressTicks ∧
      q.taDuplicateDetection = (p.isDuplicate id1 other payload).2.taDuplicateDetection ∧
      q.parsedSubPacketCodes.filter (· ∈ TafnetGameNode.protectedSubpaks) ≠ [] := by
  obtain ⟨subpaks, parsed, hdecode, hparsed, rfl, s, hs, hsize, hne, hcode⟩ := hcarries
  obtain ⟨hticks, -⟩ := isDuplicate_fields p id1 other payload
  unfold parseTaPacket
  generalize p.isDuplicate id1 other payload = r at hfresh hticks
  obtain ⟨duplicate, p1⟩ := r
  obtain rfl : duplicate = false := hfresh
  have hfollows : Follows p1.progressTicks p1.taDuplicateDetection .new p1 :=
    ⟨(Nat.zero_max _).symm, rfl, nofun⟩
  obtain ⟨q, hq, hfollows⟩ := hfollows.parseSubpaks hparsed
  simp only [hdecode, hq, Bool.false_eq_true, if_false, Option.bind_eq_bind, Option.bind_some]
  refine ⟨_, rfl, ?_, hfollows.detection, ?_⟩
  · exact hfollows.ticks.trans (congrArg (max parsed.progressTicks) hticks)
  · have hfound := hfollows.codes _ ((codes_of_parseSubpaks hparsed).2 s hs hsize hne)
    exact List.ne_nil_of_mem (List.mem_filter.mpr ⟨hfound, decide_eq_true hcode⟩)

theorem parse_duplicate {id1 other : ℕ} (hduplicate : (p.isDuplicate id1 other payload).1 = true) :
    p.parseTaPacket id1 other true payload = some (p.isDuplicate id1 other payload).2 := by
  unfold parseTaPacket
  generalize p.isDuplicate id1 other payload = r at hduplicate
  obtain ⟨duplicate, p1⟩ := r
  obtain rfl : duplicate = true := hduplicate
  rfl

/-- What parsing a copy makes of the parser; `fresh` tells whether the copy is no duplicate. -/
inductive CopyParsed (crc : UInt32) (other tick : ℕ) (p q : TAPacketParser) : Bool → Prop
  | duplicate : 0 < p.progressTicks → other = 0 → p.taDuplicateDetection.seen crc = true →
      q.progressTicks = p.progressTicks → q.taDuplicateDetection = p.taDuplicateDetection →
      CopyParsed crc other tick p q false
  | fresh : (0 < p.progressTicks → other = 0 → p.taDuplicateDetection.seen crc = false) →
      q.progressTicks = max tick p.progressTicks →
      (0 < p.progressTicks → other = 0 → q.taDuplicateDetection.seen crc = true) →
      (p.progressTicks = 0 → q.taDuplicateDetection = p.taDuplicateDetection) →
      CopyParsed crc other tick p q true

theorem parse_copy (hP : GamePacket P id1 other payload) (hcarries : Carries payload tick)
    (hd : p.taDuplicateDetection.Consistent) :
    ∃ q fresh, p.parseGameData true P = some q ∧ q.taDuplicateDetection.Consistent ∧
      CopyParsed (DuplicateDetection.crcOf id1 other payload) other tick p q fresh ∧
      (q.parsedSubPacketCodes.filter (· ∈ TafnetGameNode.protectedSubpaks) ≠ [] ↔ fresh = true) := by
  rw [parseGameData_packet hP]
  set b : TAPacketParser := { p with parsedSubPacketCodes := [] } with hb
  by_cases hwatched : 0 < p.progressTicks ∧ other = 0
  · obtain ⟨hflag, hsame, hconsistent, hseen⟩ := DuplicateDetection.isLikelyDuplicate_spec hd id1 other payload
    have hduplicate : b.isDuplicate id1 other payload =
        ((p.taDuplicateDetection.isLikelyDuplicate id1 other payload).1,
          { b with taDuplicateDetection := (p.taDuplicateDetection.isLikelyDuplicate id1 other payload).2 }) :=
      if_pos hwatched
    cases hold : p.taDuplicateDetection.seen (DuplicateDetection.crcOf id1 other payload) with
    | true =>
      rw [hold] at hflag
      have hparse := parse_duplicate (by rw [hduplicate]; exact hflag : (b.isDuplicate id1 other payload).1 = true)
      rw [hduplicate] at hparse
      refine ⟨_, false, hparse, hconsistent, .duplicate hwatched.1 hwatched.2 hold rfl (hsame hold), ?_⟩
      exact ⟨fun hno => absurd rfl hno, nofun⟩
    | false =>
      rw [hold] at hflag
      obtain ⟨q, hq, hticks, hdetection, hcodes⟩ := parse_fresh (p := b) hcarries
        (by rw [hduplicate]; exact hflag : (b.isDuplicate id1 other payload).1 = false)
      rw [hduplicate] at hdetection
      refine ⟨q, true, hq, hdetection ▸ hconsistent, .fresh (fun _ _ => hold) hticks (fun _ _ => ?_) ?_, ?_⟩
      · rw [hdetection]
        exact hseen
      · intro hzero
        omega
      · exact ⟨fun _ => rfl, fun _ => hcodes⟩
  · have hduplicate : b.isDuplicate id1 other payload = (false, b) := if_neg hwatched
    obtain ⟨q, hq, hticks, hdetection, hcodes⟩ := parse_fresh (p := b) hcarries
      (by rw [hduplicate] : (b.isDuplicate id1 other payload).1 = false)
    rw [hduplicate] at hdetection
    refine ⟨q, true, hq, hdetection ▸ hd, .fresh ?_ hticks ?_ fun _ => hdetection, ?_⟩
    · exact fun hpos hzero => absurd ⟨hpos, hzero⟩ hwatched
    · exact fun hpos hzero => absurd ⟨hpos, hzero⟩ hwatched
    · exact ⟨fun _ => rfl, fun _ => hcodes⟩

/-! ### Sending copies -/

/-- A copy comes in at the port of a peer's receiver, while the node of the net and the occupied
ports are as given. -/
structure Copy where
  tafnetNode : Node
  localPort : ℕ
  occupiedTcpPorts : List ℕ

namespace TafnetGameNode

def sendCopies (P : Bytes) : TafnetGameNode → List Copy → Option (TafnetGameNode × List GameOutput)
  | g, [] => some (g, [])
  | g, c :: copies => do
    let (g, outs) ← g.handleGameData c.tafnetNode c.localPort .CHANNEL_UDP P c.occupiedTcpPorts
    let (g, more) ← g.sendCopies P copies
    return (g, outs ++ more)

/-- Every copy is forwarded to its peer as a protected one. -/
def AllProtected (g : TafnetGameNode) (P : Bytes) (copies : List Copy) : Prop :=
  ∃ g' outs, g.sendCopies P copies = some (g', outs) ∧
    List.Forall₂ (fun (c : Copy) out => ∃ id, g.remotePlayerIds[c.localPort]? = some id ∧
      out = .forwardGameData id ACTION_UDP_PROTECTED P) copies outs

/-- The copy is larger than what is sent to the peer in one packet. -/
def Large (g : TafnetGameNode) (P : Bytes) (c : Copy) : Prop :=
  ∃ id, g.remotePlayerIds[c.localPort]? = some id ∧ c.tafnetNode.maxPacketSizeForPlayerId id < P.length

variable {g : TafnetGameNode}

/-- Before the packet is parsed, ports may be learned from its header. -/
theorem update_copy (hP : GamePacket P id1 other payload) (g : TafnetGameNode) (occupied : List ℕ) :
    ∃ g', (if g.gameTcpPort = 0 then g.updateGameSenderPortsFromDplayHeader P occupied else some g) = some g' ∧
      g'.packetParser = g.packetParser ∧ g'.remotePlayerIds = g.remotePlayerIds := by
  split
  · obtain ⟨ok, hok, -, hge⟩ := hP.header
    unfold updateGameSenderPortsFromDplayHeader
    cases ok with
    | false =>
      simp only [hok, Option.bind_eq_bind, Option.bind_some]
      exact ⟨g, rfl, rfl, rfl⟩
    | true =>
      have hlen : 28 ≤ P.length := hge rfl
      have hfits : 4 + 8 ≤ (P ++ [0]).length := by
        rw [List.length_append]
        omega
      obtain ⟨address, haddress⟩ := readAddress_of hfits
      simp only [hok, haddress, Option.bind_eq_bind, Option.bind_some]
      exact ⟨_, rfl, rfl, rfl⟩
  · exact ⟨g, rfl, rfl, rfl⟩

theorem handleGameData_udp {tafnetNode : Node} {localPort id : ℕ} {occupied : List ℕ}
    (hid : g.remotePlayerIds[localPort]? = some id) (hdata : ¬ (id = 0 ∨ P = [])) :
    g.handleGameData tafnetNode localPort .CHANNEL_UDP P occupied =
      (if g.gameTcpPort = 0 then g.updateGameSenderPortsFromDplayHeader P occupied else some g).bind fun g' =>
        g'.handleUdp tafnetNode id P := by
  unfold handleGameData
  simp only [hid, if_neg hdata]
  by_cases hport : g.gameTcpPort = 0
  · simp only [hport, if_true]
    rfl
  · simp only [hport, if_false]
    rfl

theorem handleGameData_copy (hq : g.packetParser = some p) (hP : GamePacket P id1 other payload)
    (hcarries : Carries payload tick) (hd : p.taDuplicateDetection.Consistent) {c : Copy} {id : ℕ}
    (hid : g.remotePlayerIds[c.localPort]? = some id) (hne : id ≠ 0) :
    ∃ g' q fresh action, g.handleGameData c.tafnetNode c.localPort .CHANNEL_UDP P c.occupiedTcpPorts =
        some (g', [.forwardGameData id action P]) ∧ g'.packetParser = some q ∧
      g'.remotePlayerIds = g.remotePlayerIds ∧ q.taDuplicateDetection.Consistent ∧
      CopyParsed (DuplicateDetection.crcOf id1 other payload) other tick p q fresh ∧
      (action = ACTION_UDP_PROTECTED ↔ g.Large P c ∨ p.progressTicks < TICKS_TO_PROTECT_UDP ∨ fresh = true) := by
  obtain ⟨-, -, hpos, -⟩ := hP.header
  obtain ⟨g1, hupdate, hparser, hids⟩ := update_copy hP g c.occupiedTcpPorts
  obtain ⟨q, fresh, hparse, hconsistent, hparsed, hcodes⟩ := parse_copy hP hcarries hd
  have hdata : ¬ (id = 0 ∨ P = []) := by
    rw [not_or]
    exact ⟨hne, List.ne_nil_of_length_pos hpos⟩
  have hlarge : g.Large P c ↔ c.tafnetNode.maxPacketSizeForPlayerId id < P.length := by
    constructor
    · intro h
      obtain ⟨id', hid', hlt⟩ := h
      rw [Option.some.inj (hid.symm.trans hid')]
      exact hlt
    · exact fun hlt => ⟨id, hid, hlt⟩
  rw [handleGameData_udp hid hdata, hupdate, Option.bind_some]
  rw [hq] at hparser
  simp only [handleUdp, hparser, hparse, Option.bind_eq_bind, Option.bind_some]
  refine ⟨_, q, fresh, _, rfl, rfl, hids, hconsistent, hparsed, ?_⟩
  rw [hlarge, ← hcodes]
  have hactions : ACTION_UDP_DATA ≠ ACTION_UDP_PROTECTED := by decide
  split
  · rename_i hprotect
    simp only [Bool.or_eq_true, decide_eq_true_eq, or_assoc] at hprotect
    exact ⟨fun _ => hprotect, fun _ => rfl⟩
  · rename_i hno
    simp only [Bool.or_eq_true, decide_eq_true_eq, or_assoc] at hno
    exact ⟨fun heq => absurd heq hactions, fun hyes => absurd hyes hno⟩

theorem allProtected_cons {g' : TafnetGameNode} {c : Copy} {copies : List Copy} {id action : ℕ}
    (hid : g.remotePlayerIds[c.localPort]? = some id)
    (hsend : g.handleGameData c.tafnetNode c.localPort .CHANNEL_UDP P c.occupiedTcpPorts =
      some (g', [.forwardGameData id action P])) (hids : g'.remotePlayerIds = g.remotePlayerIds) :
    g.AllProtected P (c :: copies) ↔ action = ACTION_UDP_PROTECTED ∧ g'.AllProtected P copies := by
  have hcons : g.sendCopies P (c :: copies) =
      (g'.sendCopies P copies).bind fun r => some (r.1, [.forwardGameData id action P] ++ r.2) := by
    rw [sendCopies, hsend]
    rfl
  unfold AllProtected
  rw [hcons, hids]
  constructor
  · intro h
    obtain ⟨g2, outs, hrun, hall⟩ := h
    obtain ⟨⟨g3, more⟩, hmore, hrun⟩ := Option.bind_eq_some_iff.mp hrun
    cases hrun
    cases hall with
    | cons hhead htail =>
      obtain ⟨id', -, hout⟩ := hhead
      cases hout
      exact ⟨rfl, _, _, hmore, htail⟩
  · intro h
    obtain ⟨rfl, g2, more, hmore, hall⟩ := h
    exact ⟨g2, _, by rw [hmore]; rfl, .cons ⟨id, hid, rfl⟩ hall⟩

end TafnetGameNode

/-- As many copies are parsed before the rest is taken for duplicates. -/
def freshCopies (p : TAPacketParser) (crc : UInt32) : ℕ :=
  (if p.progressTicks = 0 then 1 else 0) + if p.taDuplicateDetection.seen crc = true then 0 else 1

/-- The last game tick when the rest comes. -/
def ticksThen (p : TAPacketParser) (crc : UInt32) (tick : ℕ) : ℕ :=
  if freshCopies p crc = 0 then p.progressTicks else max tick p.progressTicks

/-- A duplicate leaves everything as it is; otherwise there is one copy less to be parsed, or no
game tick has been seen yet. -/
theorem CopyParsed.next {crc : UInt32} {fresh : Bool} (h : CopyParsed crc 0 tick p q fresh) :
    ticksThen q crc tick = ticksThen p crc tick ∧
      (fresh = false → freshCopies p crc = 0 ∧ freshCopies q crc = 0 ∧ ticksThen p crc tick = p.progressTicks) ∧
      (fresh = true → ticksThen p crc tick = 0 ∨ freshCopies p crc = freshCopies q crc + 1) := by
  cases h with
  | duplicate hpos _ hseen hticks hdetection =>
    have hp : freshCopies p crc = 0 := by
      rw [freshCopies, if_neg hpos.ne', if_pos hseen]
    have hqzero : freshCopies q crc = 0 := by
      rw [freshCopies, hticks, hdetection, if_neg hpos.ne', if_pos hseen]
    rw [ticksThen, ticksThen, if_pos hp, if_pos hqzero]
    exact ⟨hticks, fun _ => ⟨hp, hqzero, rfl⟩, nofun⟩
  | fresh hnew hticks hseen hsame =>
    by_cases hzero : p.progressTicks = 0
    · rw [hzero, Nat.max_zero] at hticks
      have hdetection := hsame hzero
      have hp : freshCopies p crc = 1 + if p.taDuplicateDetection.seen crc = true then 0 else 1 := by
        rw [freshCopies, if_pos hzero]
      have hthen : ticksThen p crc tick = tick := by
        rw [ticksThen, if_neg (by omega), hzero, Nat.max_zero]
      have hthen' : ticksThen q crc tick = tick := by
        rw [ticksThen, hticks, max_self, ite_self]
      refine ⟨hthen'.trans hthen.symm, nofun, fun _ => ?_⟩
      by_cases htick : tick = 0
      · exact .inl (hthen.trans htick)
      · refine .inr ?_
        rw [hp, freshCopies, hticks, hdetection, if_neg htick]
        omega
    · have hpos : 0 < p.progressTicks := Nat.pos_of_ne_zero hzero
      have hp : freshCopies p crc = 1 := by
        rw [freshCopies, if_neg hzero, if_neg (by rw [hnew hpos rfl]; decide)]
      have hqzero : freshCopies q crc = 0 := by
        rw [freshCopies, if_neg (by omega), if_pos (hseen hpos rfl)]
      rw [ticksThen, ticksThen, if_pos hqzero, if_neg (by omega)]
      exact ⟨hticks, nofun, fun _ => .inr (by omega)⟩

variable {g : TafnetGameNode}

theorem allProtected_iff (copies : List Copy) (hq : g.packetParser = some p)
    (hd : p.taDuplicateDetection.Consistent) (hP : GamePacket P id1 other payload) (hcarries : Carries payload tick)
    (hports : ∀ c ∈ copies, ∃ id, id ≠ 0 ∧ g.remotePlayerIds[c.localPort]? = some id) :
    g.AllProtected P copies ↔ other ≠ 0 ∨
      ticksThen p (DuplicateDetection.crcOf id1 other payload) tick < TICKS_TO_PROTECT_UDP ∨
      ∀ c ∈ copies.drop (freshCopies p (DuplicateDetection.crcOf id1 other payload)), g.Large P c := by
  induction copies generalizing g p with
  | nil =>
    refine ⟨fun _ => .inr (.inr ?_), fun _ => ⟨g, [], rfl, .nil⟩⟩
    rw [List.drop_nil]
    exact nofun
  | cons c copies ih =>
    obtain ⟨id, hne, hid⟩ := hports c List.mem_cons_self
    obtain ⟨g', q, fresh, action, hsend, hq', hids, hd', hparsed, haction⟩ :=
      TafnetGameNode.handleGameData_copy hq hP hcarries hd hid hne
    have hports' : ∀ c ∈ copies, ∃ id, id ≠ 0 ∧ g'.remotePlayerIds[c.localPort]? = some id := by
      rw [hids]
      exact fun c hc => hports c (List.mem_cons_of_mem _ hc)
    have hlarge (c : Copy) : g'.Large P c ↔ g.Large P c := by
      unfold TafnetGameNode.Large
      rw [hids]
    rw [TafnetGameNode.allProtected_cons hid hsend hids, haction, ih hq' hd' hports']
    simp only [hlarge]
    by_cases hother : other = 0
    · subst hother
      obtain ⟨hthen, hduplicate, hfresh⟩ := hparsed.next
      rw [hthen]
      cases fresh with
      | false =>
        obtain ⟨hp, hqzero, hticks⟩ := hduplicate rfl
        rw [hp, hqzero, hticks, List.drop_zero, List.drop_zero, List.forall_mem_cons]
        simp only [ne_eq, not_true, false_or, Bool.false_eq_true, or_false]
        rw [or_comm, ← or_and_left]
      | true =>
        simp only [or_true, true_and]
        rcases hfresh rfl with hzero | hless
        · have hearly : ticksThen p (DuplicateDetection.crcOf id1 0 payload) tick < TICKS_TO_PROTECT_UDP := by
            rw [hzero]
            decide
          exact ⟨fun _ => .inr (.inl hearly), fun _ => .inr (.inl hearly)⟩
        · rw [hless, List.drop_succ_cons]
    · have hfresh : fresh = true := by
        cases hparsed with
        | duplicate _ hzero => exact absurd hzero hother
        | fresh => rfl
      exact ⟨fun _ => .inl hother, fun _ => ⟨.inr (.inr hfresh), .inl hother⟩⟩

/-! ### The window stays consistent -/

theorem consistent_parseTaPacket {isLocalSource : Bool} (hd : p.taDuplicateDetection.Consistent)
    (h : p.parseTaPacket id1 other isLocalSource payload = some q) : q.taDuplicateDetection.Consistent := by
  have hdetected : (p.isDuplicate id1 other payload).2.taDuplicateDetection.Consistent := by
    unfold isDuplicate
    split
    · exact (DuplicateDetection.isLikelyDuplicate_spec hd id1 other payload).2.2.1
    · exact hd
  unfold parseTaPacket at h
  generalize p.isDuplicate id1 other payload = r at h hdetected
  obtain ⟨duplicate, p1⟩ := r
  simp only [] at h
  split at h
  · cases h
    exact hdetected
  · obtain ⟨subpaks, -, h⟩ := Option.bind_eq_some_iff.mp h
    cases subpaks with
    | none =>
      cases h
      exact hdetected
    | some subpaks =>
      obtain ⟨p2, hp2, h⟩ := Option.bind_eq_some_iff.mp h
      cases h
      have hself : Follows 0 p1.taDuplicateDetection p1 p1 :=
        ⟨(max_eq_left (Nat.zero_le _)).symm, rfl, fun _ hc => hc⟩
      obtain ⟨p2', hp2', hfollows⟩ := hself.parseSubpaks hp2
      have hsame : p2 = p2' := Option.some.inj (hp2.symm.trans hp2')
      show p2.taDuplicateDetection.Consistent
      rw [hsame, hfollows.detection]
      exact hdetected

theorem consistent_parseLoop {isLocalSource : Bool} {data : Bytes} (fuel : ℕ) {remaining : ℕ} {buf : Bytes}
    (hd : p.taDuplicateDetection.Consistent) (h : parseLoop isLocalSource data fuel remaining buf p = some q) :
    q.taDuplicateDetection.Consistent := by
  induction fuel generalizing remaining buf p with
  | zero => cases h
  | succ fuel ih =>
    rw [parseLoop] at h
    split at h
    · cases h
      exact hd
    obtain ⟨ok, -, h⟩ := Option.bind_eq_some_iff.mp h
    split at h
    · obtain ⟨id1, -, h⟩ := Option.bind_eq_some_iff.mp h
      obtain ⟨id2, -, h⟩ := Option.bind_eq_some_iff.mp h
      exact consistent_parseTaPacket hd h
    · obtain ⟨action, -, h⟩ := Option.bind_eq_some_iff.mp h
      obtain ⟨size, -, h⟩ := Option.bind_eq_some_iff.mp h
      split at h
      · obtain ⟨p1, hp1, h⟩ := Option.bind_eq_some_iff.mp h
        obtain ⟨calls, -, rfl⟩ := Option.map_eq_some_iff.mp hp1
        have htold : (p.tell calls).taDuplicateDetection.Consistent := hd
        exact ih htold h
      · obtain ⟨slice, -, h⟩ := Option.bind_eq_some_iff.mp h
        obtain ⟨p1, hp1, h⟩ := Option.bind_eq_some_iff.mp h
        exact ih (consistent_parseTaPacket hd hp1) h

namespace TafnetGameNode

variable {g g' : TafnetGameNode}

theorem parses_step {e : Event} (h : g.step e = some g') : Parses g g' := by
  cases e with
  | registerRemotePlayer id port os listens =>
    cases h
    exact .inl (registerRemotePlayer_keeps g id port os listens).2
  | unregisterRemotePlayer id =>
    cases h
    exact .inl (killGameReceiver_keeps _ id).2
  | handleTafnetMessage action id data os =>
    obtain ⟨⟨g1, outs⟩, h1, rfl⟩ := Option.map_eq_some_iff.mp h
    have hparses := (handleTafnetMessage_spec h1).parser
    unfold Parses at hparses ⊢
    rw [parser_getGameReceiver] at hparses
    exact hparses
  | handleGameData tafnetNode port channelCode data occupied =>
    obtain ⟨⟨g1, outs⟩, h1, rfl⟩ := Option.map_eq_some_iff.mp h
    exact (handleGameData_spec h1).1.parser

theorem consistent_of_runs {ok : TafnetGameNode → Event → Prop} {p0 : TAPacketParser} {occupied : List ℕ}
    (hd : p0.taDuplicateDetection.Consistent) (h : Runs step ok (.new (some p0) occupied) g)
    (hq : g.packetParser = some p) : p.taDuplicateDetection.Consistent := by
  refine Runs.invariant (P := fun g => ∀ p, g.packetParser = some p → p.taDuplicateDetection.Consistent)
    h ?_ ?_ p hq
  · intro p hp
    cases hp
    exact hd
  · intro g e g' hg _ hstep p hp
    rcases parses_step hstep with hsame | ⟨p1, q, isLocalSource, data, hp1, hparse, hq⟩
    · exact hg p (hsame ▸ hp)
    · obtain rfl : q = p := Option.some.inj (hq.symm.trans hp)
      have hd1 : ({ p1 with parsedSubPacketCodes := [] } : TAPacketParser).taDuplicateDetection.Consistent := hg p1 hp1
      exact consistent_parseLoop _ hd1 hparse

/-- In every state of a node, all copies of a packet are protected exactly if the packet has a
destination of its own, or the game has just begun, or those that are taken for duplicates are large. -/
theorem copies_protected_iff {occupied : List ℕ} (copies : List Copy)
    (h : Runs step (fun _ _ => True) (.new (some .new) occupied) g) (hq : g.packetParser = some p)
    (hP : GamePacket P id1 other payload) (hcarries : Carries payload tick)
    (hports : ∀ c ∈ copies, ∃ id, id ≠ 0 ∧ g.remotePlayerIds[c.localPort]? = some id) :
    g.AllProtected P copies ↔ other ≠ 0 ∨
      ticksThen p (DuplicateDetection.crcOf id1 other payload) tick < TICKS_TO_PROTECT_UDP ∨
      ∀ c ∈ copies.drop (freshCopies p (DuplicateDetection.crcOf id1 other payload)), g.Large P c :=
  allProtected_iff copies hq (consistent_of_runs DuplicateDetection.consistent_new h hq) hP hcarries hports

/-- The game has told tick 1000, in a packet that went to the first of two players. -/
def underWay : List Event :=
  [.registerRemotePlayer 2 0 ⟨2130706433, 5000, 6000⟩ false, .registerRemotePlayer 3 0 ⟨2130706433, 5001, 6001⟩ false,
    .handleGameData (.new 1 false false 1500) 6000 .CHANNEL_UDP
      [7, 0, 0, 0, 0, 0, 0, 0, 3, 61, 2, 3, 4, 5, 6, 43, 3, 9, 226, 8, 12, 13, 241, 255, 1, 0] []]

/-- A change of the game's speed. -/
def speedPacket : Bytes := [7, 0, 0, 0, 0, 0, 0, 0, 3, 18, 0, 3, 4, 5, 6, 25, 5, 6]

def speedCopies : List Copy := [⟨.new 1 false false 1500, 6000, []⟩, ⟨.new 1 false false 1500, 6001, []⟩]

/-- What is known of the node and its parser before the copies are sent. -/
def told (g : TafnetGameNode) : Option (ℕ × Bool × Option ℕ × Option ℕ) :=
  g.packetParser.map fun p => (p.progressTicks,
    p.taDuplicateDetection.seen (DuplicateDetection.crcOf 7 0 (speedPacket.drop 8)),
    g.remotePlayerIds[6000]?, g.remotePlayerIds[6001]?)

theorem speed_packet : GamePacket speedPacket 7 0 (speedPacket.drop 8) ∧ Carries (speedPacket.drop 8) 0 := by
  obtain ⟨parsed, hparsed, hticks⟩ : ∃ parsed, [[0x19, 5, 6]].foldlM parseSubpak .new = some parsed ∧
      parsed.progressTicks = 0 := ⟨_, rfl, rfl⟩
  have hdecode : decodeTaPacket (speedPacket.drop 8) = some (some [[0x19, 5, 6]]) := by decide +kernel
  exact ⟨.bare (by decide +kernel) (by decide) rfl rfl, _, parsed, hdecode, hparsed, hticks, [0x19, 5, 6],
    List.mem_singleton_self _, rfl, by decide, by decide⟩

theorem under_way : ∃ g p, run step (.new (some .new) []) underWay = some g ∧ g.packetParser = some p ∧
    p.progressTicks = 1000 ∧
    p.taDuplicateDetection.seen (DuplicateDetection.crcOf 7 0 (speedPacket.drop 8)) = false ∧
    g.remotePlayerIds[6000]? = some 2 ∧ g.remotePlayerIds[6001]? = some 3 := by
  have htold : (run step (.new (some .new) []) underWay).bind told = some (1000, false, some 2, some 3) := by
    decide +kernel
  obtain ⟨g, hg, htold⟩ := Option.bind_eq_some_iff.mp htold
  obtain ⟨p, hp, htold⟩ := Option.map_eq_some_iff.mp htold
  simp only [Prod.mk.injEq] at htold
  exact ⟨g, p, hg, hp, htold⟩

/-- Both players are known, and the game has not begun. -/
def registered : List Event := underWay.take 2

/-- At the beginning both copies are protected. -/
theorem copies_protected_speed : ∃ g p, run step (.new (some .new) []) registered = some g ∧
    g.packetParser = some p ∧ g.AllProtected speedPacket speedCopies := by
  have htold : (run step (.new (some .new) []) registered).bind told = some (0, false, some 2, some 3) := by
    decide +kernel
  obtain ⟨g, hg, htold⟩ := Option.bind_eq_some_iff.mp htold
  obtain ⟨p, hp, htold⟩ := Option.map_eq_some_iff.mp htold
  simp only [Prod.mk.injEq] at htold
  obtain ⟨hticks, hseen, hfirst, hsecond⟩ := htold
  refine ⟨g, p, hg, hp, (copies_protected_iff speedCopies (Runs.of_run registered hg fun _ _ _ => trivial) hp
    speed_packet.1 speed_packet.2 fun c hc => ?_).mpr (.inr (.inl ?_))⟩
  · rcases List.mem_cons.mp hc with rfl | hc
    · exact ⟨2, by decide, hfirst⟩
    · obtain rfl := List.mem_singleton.mp hc
      exact ⟨3, by decide, hsecond⟩
  · rw [ticksThen, freshCopies, hticks, hseen]
    decide

/-- While the game is under way the second copy is not. -/
theorem second_copy_unprotected : GamePacket speedPacket 7 0 (speedPacket.drop 8) ∧
    Carries (speedPacket.drop 8) 0 ∧ ∃ g, run step (.new (some .new) []) underWay = some g ∧
    (∃ p, g.packetParser = some p) ∧ g.remotePlayerIds[6000]? = some 2 ∧ g.remotePlayerIds[6001]? = some 3 ∧
    (g.sendCopies speedPacket speedCopies).map (·.2) =
      some [.forwardGameData 2 ACTION_UDP_PROTECTED speedPacket, .forwardGameData 3 ACTION_UDP_DATA speedPacket] ∧
    ¬ g.AllProtected speedPacket speedCopies := by
  obtain ⟨g, p, hg, hp, -, -, hfirst, hsecond⟩ := under_way
  have hsent : (run step (.new (some .new) []) underWay).bind
      (fun g => (g.sendCopies speedPacket speedCopies).map (·.2)) =
      some [.forwardGameData 2 ACTION_UDP_PROTECTED speedPacket, .forwardGameData 3 ACTION_UDP_DATA speedPacket] := by
    decide +kernel
  rw [hg, Option.bind_some] at hsent
  refine ⟨speed_packet.1, speed_packet.2, g, hg, ⟨p, hp⟩, hfirst, hsecond, hsent, fun hall => ?_⟩
  obtain ⟨g', outs, hrun, hall⟩ := hall
  rw [hrun, Option.map_some, Option.some.injEq] at hsent
  subst hsent
  cases hall with
  | cons _ hall =>
    cases hall with
    | cons hout =>
      obtain ⟨id, -, hout⟩ := hout
      exact absurd (GameOutput.forwardGameData.inj hout).2.1 (by decide)

end TafnetGameNode

end packet

end Gpgnet4TA.Tafnet
