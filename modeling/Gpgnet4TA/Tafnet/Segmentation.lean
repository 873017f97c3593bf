import Gpgnet4TA.Tafnet.Translation

/-!
# Translation and the reads of a TCP connection

Each read of a receiver's connection is translated as if it began with a message. When every
read consists of whole messages, what is forwarded is the translation of the stream; a cut
inside a message is safe at no place.
-/

namespace Gpgnet4TA.Tafnet
open Gpgnet4TA.Lib Gpgnet4TA.Tapacket

namespace TafnetGameNode

/-- The reads of a connection to the receiver with TCP port `port`, one after the other, each with
what a probe of the ports would find. -/
def onReadyReadTcp (tafnetNode : Node) (port : ℕ) (g : TafnetGameNode) :
    List (Bytes × List ℕ) → Option (TafnetGameNode × List GameOutput)
  | [] => some (g, [])
  | (datas, occupied) :: reads => do
    let (g, outs) ← g.handleGameData tafnetNode port .CHANNEL_TCP datas occupied
    let (g, outs') ← onReadyReadTcp tafnetNode port g reads
    return (g, outs ++ outs')

/-- The data block of an output with ACTION_TCP_DATA. -/
def tcpData : GameOutput → Bytes
  | .forwardGameData _ action data => if action = ACTION_TCP_DATA then data else []
  | _ => []

/-- What the reads make the node forward is the translation of the stream in one piece. -/
def ForwardsTranslation (tafnetNode : Node) (port : ℕ) (g : TafnetGameNode)
    (reads : List (Bytes × List ℕ)) : Prop :=
  ∃ g1 outs g2 data, g.onReadyReadTcp tafnetNode port reads = some (g1, outs) ∧
    g.translateMessageFromLocalGame tafnetNode.playerId (reads.map (·.1)).flatten 0 (0xdead, 0xbeef) =
      some (g2, data) ∧ (outs.map tcpData).flatten = data

/-- Every read consists of whole messages of the stream. -/
def WholeMessages : List Bytes → List (Bytes × List ℕ) → Prop
  | ms, [] => ms = []
  | ms, (datas, _) :: reads => ∃ k, datas = (ms.take k).flatten ∧ WholeMessages (ms.drop k) reads

/-! ### Reads of whole messages -/

section whole

variable {g g' : TafnetGameNode} {tafnetNode : Node} {port p : ℕ} {ms : List Bytes}

theorem localTranslater_congr (h : SameTables g g') (playerId replyAddress : ℕ) (replyPorts : ℕ × ℕ) :
    g'.localTranslater playerId replyAddress replyPorts =
      g.localTranslater playerId replyAddress replyPorts := by
  unfold localTranslater
  rw [h.ids]

theorem exists_becomes {t : GameAddressTranslater} (ht : t.WellSized)
    (hms : ∀ m ∈ ms, ∃ spas, ControlMessage m spas) :
    ∃ ms' cs, List.Forall₂ t.Becomes ms ms' ∧ List.Forall₂ Reports ms' cs := by
  induction ms with
  | nil => exact ⟨[], [], .nil, .nil⟩
  | cons m ms ih =>
    obtain ⟨spas, hm⟩ := hms m List.mem_cons_self
    obtain ⟨m', hbecomes, hrewritten⟩ := GameAddressTranslater.becomes hm.addressed ht
    obtain ⟨calls, hcalls⟩ := hm.reports
    obtain ⟨ms', cs, h1, h2⟩ := ih fun m hm => hms m (List.mem_cons_of_mem _ hm)
    exact ⟨m' :: ms', calls :: cs, .cons hbecomes h1, .cons (hcalls m' hrewritten.same) h2⟩

theorem parse_reports {cs : List (List HandlerCall)} (g : TafnetGameNode) (isLocalSource : Bool)
    (h : List.Forall₂ Reports ms cs) : ∃ g', g.parse isLocalSource ms.flatten = some g' := by
  unfold parse
  cases g.packetParser with
  | none => exact ⟨g, rfl⟩
  | some parser =>
    dsimp only
    rw [parseGameData_reports h]
    exact ⟨_, rfl⟩

theorem updateGameSenderPorts_messages (g : TafnetGameNode) (occupied : List ℕ)
    (hms : ∀ m ∈ ms, ∃ spas, ControlMessage m spas) (hne : ms.flatten ≠ []) :
    ∃ g', g.updateGameSenderPortsFromDplayHeader ms.flatten occupied = some g' := by
  cases ms with
  | nil => exact absurd rfl hne
  | cons m ms =>
    obtain ⟨spas, hm⟩ := hms m List.mem_cons_self
    have hagree : AgreesOutside (AddressFields spas) m ((m :: ms).flatten ++ [0]) := by
      rw [List.flatten_cons, List.append_assoc]
      exact (SameOutside.refl _ _).agrees
    obtain ⟨hok, -⟩ := hm.header hagree
    obtain ⟨address, haddress⟩ := @readAddress_of ((m :: ms).flatten ++ [0]) 4 (by
      have := hm.length_ge
      have := hagree.length
      omega)
    simp only [updateGameSenderPortsFromDplayHeader, hok, haddress, Option.bind_eq_bind, Option.bind_some,
      if_true]
    exact ⟨_, rfl⟩

theorem handleGameData_messages {ms' : List Bytes} {cs : List (List HandlerCall)}
    (hp : g.remotePlayerIds[port]? = some p) (hp0 : p ≠ 0) (occupied : List ℕ)
    (hms : ∀ m ∈ ms, ∃ spas, ControlMessage m spas)
    (hbecomes : List.Forall₂ (g.localTranslater tafnetNode.playerId 0 (0xdead, 0xbeef)).Becomes ms ms')
    (hreports : List.Forall₂ Reports ms' cs) :
    ∃ g' outs, g.handleGameData tafnetNode port .CHANNEL_TCP ms.flatten occupied = some (g', outs) ∧
      (outs.map tcpData).flatten = ms'.flatten := by
  by_cases hne : ms.flatten = []
  · refine ⟨g, [], ?_, ?_⟩
    · unfold handleGameData
      rw [hp]
      exact if_pos (Or.inr hne)
    · have hlen := GameAddressTranslater.length_becomes hbecomes
      rw [hne, List.length_nil, List.length_eq_zero_iff] at hlen
      exact hlen.symm
  · have htcp : ∀ g1, SameTables g g1 → ∃ g' outs, g1.handleTcp tafnetNode p ms.flatten = some (g', outs) ∧
        (outs.map tcpData).flatten = ms'.flatten := by
      intro g1 hsame
      obtain ⟨visits, htranslate⟩ := GameAddressTranslater.translate_becomes hbecomes
      obtain ⟨g2, hparse⟩ := parse_reports (visits.foldl visit g1) true hreports
      refine ⟨g2, [.forwardGameData p ACTION_TCP_DATA ms'.flatten], ?_, ?_⟩
      · simp only [handleTcp, translateMessageFromLocalGame, localTranslater_congr hsame, htranslate,
          Option.bind_eq_bind, Option.bind_some, hparse, Option.pure_def]
      · rw [List.map_singleton, List.flatten_singleton, tcpData, if_pos rfl]
    unfold handleGameData
    rw [hp]
    dsimp only
    rw [if_neg (not_or.mpr ⟨hp0, hne⟩)]
    split
    · obtain ⟨g1, h1⟩ := updateGameSenderPorts_messages g occupied hms hne
      rw [h1, Option.bind_eq_bind, Option.bind_some]
      exact htcp g1 ((onlyPorts_updateGameSenderPorts h1).serves (.refl g1)).tables
    · exact htcp g (.refl g)

theorem onReadyReadTcp_messages {reads : List (Bytes × List ℕ)}
    (hp : g.remotePlayerIds[port]? = some p) (hp0 : p ≠ 0)
    (ht : (g.localTranslater tafnetNode.playerId 0 (0xdead, 0xbeef)).WellSized)
    (hms : ∀ m ∈ ms, ∃ spas, ControlMessage m spas) (hreads : WholeMessages ms reads) :
    (reads.map (·.1)).flatten = ms.flatten ∧ ∃ g' outs ms',
      g.onReadyReadTcp tafnetNode port reads = some (g', outs) ∧
      List.Forall₂ (g.localTranslater tafnetNode.playerId 0 (0xdead, 0xbeef)).Becomes ms ms' ∧
      (outs.map tcpData).flatten = ms'.flatten := by
  induction reads generalizing g ms with
  | nil =>
    obtain rfl := hreads
    exact ⟨rfl, g, [], [], rfl, .nil, rfl⟩
  | cons read reads ih =>
    obtain ⟨datas, occupied⟩ := read
    obtain ⟨k, rfl, hrest⟩ := hreads
    have hms1 : ∀ m ∈ ms.take k, ∃ spas, ControlMessage m spas := fun m hm => hms m (List.mem_of_mem_take hm)
    obtain ⟨ms1, cs, hbecomes, hreports⟩ := exists_becomes ht hms1
    obtain ⟨g1, outs1, hread, hdata1⟩ := handleGameData_messages hp hp0 occupied hms1 hbecomes hreports
    have hsame := (handleGameData_spec hread).1.tables
    have hcongr := localTranslater_congr hsame tafnetNode.playerId 0 (0xdead, 0xbeef)
    obtain ⟨hflatten, g2, outs2, ms2, hreads2, hbecomes2, hdata2⟩ := @ih g1 (ms.drop k)
      (by rw [hsame.ids, hp]) (hcongr ▸ ht) (fun m hm => hms m (List.mem_of_mem_drop hm)) hrest
    rw [hcongr] at hbecomes2
    refine ⟨?_, g2, outs1 ++ outs2, ms1 ++ ms2, ?_, ?_, ?_⟩
    · rw [List.map_cons, List.flatten_cons, hflatten, ← List.flatten_append, List.take_append_drop]
    · rw [onReadyReadTcp, hread, Option.bind_eq_bind, Option.bind_some]
      dsimp only
      rw [hreads2]
      rfl
    · have happend : List.Forall₂ _ (ms.take k ++ ms.drop k) (ms1 ++ ms2) :=
        List.rel_append hbecomes hbecomes2
      rwa [List.take_append_drop] at happend
    · rw [List.map_append, List.flatten_append, hdata1, hdata2, List.flatten_append]

theorem forwardsTranslation_of_whole {reads : List (Bytes × List ℕ)}
    (hp : g.remotePlayerIds[port]? = some p) (hp0 : p ≠ 0)
    (ht : (g.localTranslater tafnetNode.playerId 0 (0xdead, 0xbeef)).WellSized)
    (hms : ∀ m ∈ ms, ∃ spas, ControlMessage m spas) (hreads : WholeMessages ms reads) :
    ForwardsTranslation tafnetNode port g reads := by
  obtain ⟨hflatten, g1, outs, ms', hrun, hbecomes, hdata⟩ := onReadyReadTcp_messages hp hp0 ht hms hreads
  obtain ⟨visits, htranslate⟩ := GameAddressTranslater.translate_becomes hbecomes
  refine ⟨g1, outs, visits.foldl visit g, ms'.flatten, hrun, ?_, hdata⟩
  rw [hflatten, translateMessageFromLocalGame, htranslate]
  rfl

end whole

/-! ### Cuts inside a message -/

/-- A message of `l` bytes without addresses; behind the action string there are only zeros. -/
def quietMessage (l : ℕ) : Bytes :=
  leBytes 4 (0xfab * 2 ^ 20 + l) ++ [2, 0] ++ List.replicate 14 0 ++ playString ++ List.replicate (l - 24) 0

section cut

variable {l k : ℕ}

theorem header_quiet (hl : 28 ≤ l) (hl' : l < 2 ^ 20) (rest : Bytes) :
    DPHeader.looksOk (leBytes 4 (0xfab * 2 ^ 20 + l) ++ [2, 0] ++ rest) = some true ∧
      DPHeader.size (leBytes 4 (0xfab * 2 ^ 20 + l) ++ [2, 0] ++ rest) = some l := by
  have hword : u32At (leBytes 4 (0xfab * 2 ^ 20 + l) ++ [2, 0] ++ rest) 0 =
      some (0xfab * 2 ^ 20 + l) := by
    rw [List.append_assoc]
    exact u32At_append [] _ _ (by omega)
  have hfamily : u16At (leBytes 4 (0xfab * 2 ^ 20 + l) ++ [2, 0] ++ rest) 4 = some 2 := by
    have hs := sliceAt_append (leBytes 4 (0xfab * 2 ^ 20 + l)) [2, 0] rest
    rw [length_leBytes] at hs
    change sliceAt _ 4 2 = _ at hs
    rw [u16At, hs]
    rfl
  have hsize : (0xfab * 2 ^ 20 + l) % 2 ^ 20 = l := by omega
  have htoken : (0xfab * 2 ^ 20 + l) / 2 ^ 20 = 0xfab := by omega
  constructor
  · simp only [DPHeader.looksOk, DPHeader.token, DPHeader.size, hword, hfamily, Option.bind_eq_bind,
      Option.bind_some, Option.map_some, hsize, htoken, sizeofDPHeader, ne_eq, not_true, if_false, true_or,
      true_and]
    rw [decide_eq_true hl]
    rfl
  · rw [DPHeader.size, hword, Option.map_some, hsize]

theorem length_quietMessage (hl : 28 ≤ l) : (quietMessage l).length = l := by
  simp only [quietMessage, List.length_append, length_leBytes, List.length_replicate, playString,
    List.length_cons, List.length_nil]
  omega

theorem controlMessage_quietMessage (hl : 28 ≤ l) (hl' : l < 2 ^ 20) :
    ControlMessage (quietMessage l) [] := by
  have hheader := header_quiet hl hl' (List.replicate 14 0 ++ playString ++ List.replicate (l - 24) 0)
  rw [← List.append_assoc, ← List.append_assoc] at hheader
  refine ⟨hheader.1, ?_, ?_, ?_⟩
  · have hs := sliceAt_append (leBytes 4 (0xfab * 2 ^ 20 + l) ++ [2, 0] ++ List.replicate 14 0) playString
      (List.replicate (l - 24) 0)
    simp only [List.length_append, length_leBytes, List.length_replicate, List.length_cons,
      List.length_nil] at hs
    exact hs
  · rw [length_quietMessage hl]
    exact hheader.2
  · have hs := sliceAt_append
      (leBytes 4 (0xfab * 2 ^ 20 + l) ++ [2, 0] ++ List.replicate 14 0 ++ playString) (List.replicate 2 0)
      (List.replicate (l - 26) 0)
    rw [List.append_assoc, ← List.replicate_add, show 2 + (l - 26) = l - 24 by omega] at hs
    simp only [List.length_append, length_leBytes, List.length_replicate, playString, List.length_cons,
      List.length_nil] at hs
    have hcommand : DPHeader.command (quietMessage l) = some 0 := by
      rw [DPHeader.command, u16At, quietMessage]
      unfold playString
      rw [hs]
      rfl
    rw [spAddresses, hcommand]
    rfl

theorem sliceAt_zeros (n ofs len : ℕ) :
    sliceAt (List.replicate n 0) ofs len = if ofs + len ≤ n then some (List.replicate len 0) else none := by
  unfold sliceAt
  rw [List.length_replicate]
  split
  · rw [List.drop_replicate, List.take_replicate, min_eq_left (by omega)]
  · rfl

theorem translateLoop_zeros (t : GameAddressTranslater) (n fuel : ℕ) {remaining : ℕ} (h : remaining ≠ 0) :
    t.translateLoop fuel remaining (List.replicate n 0) = none := by
  induction fuel with
  | zero => rfl
  | succ fuel ih =>
    rw [GameAddressTranslater.translateLoop, if_neg h]
    by_cases hn : 6 ≤ n
    · have hfamily : u16At (List.replicate n 0) 4 = some 0 := by
        rw [u16At, sliceAt_zeros, if_pos hn]
        rfl
      have hword : u32At (List.replicate n 0) 0 = some 0 := by
        rw [u32At, sliceAt_zeros, if_pos (by omega)]
        rfl
      have hok : DPHeader.looksOk (List.replicate n 0) = some false := by
        rw [DPHeader.looksOk, hfamily]
        rfl
      have hmessage : t.translateMessage (List.replicate n 0) = some (List.replicate n 0, []) := by
        rw [GameAddressTranslater.translateMessage, hok]
        rfl
      rw [hmessage, Option.bind_eq_bind, Option.bind_some]
      simp only [DPHeader.size, hword, Option.map_some, Option.bind_eq_bind, Option.bind_some, Nat.zero_mod,
        Nat.sub_zero, List.drop_zero, ih, Option.bind_none]
    · have hok : DPHeader.looksOk (List.replicate n 0) = none := by
        rw [DPHeader.looksOk, u16At, sliceAt_zeros, if_neg (by omega)]
        rfl
      rw [GameAddressTranslater.translateMessage, hok]
      rfl

/-- The rest of a message behind its command, read as if it were one. -/
theorem translate_rest (t : GameAddressTranslater) (hk : 25 ≤ k) (hkl : k < l) :
    t.translate ((quietMessage l).drop k) = none := by
  have hdrop : (quietMessage l).drop k = List.replicate (l - k) 0 := by
    unfold quietMessage
    rw [List.drop_append, List.drop_eq_nil_of_le (by
      simp only [List.length_append, length_leBytes, List.length_replicate, playString, List.length_cons,
        List.length_nil]
      omega), List.nil_append, List.drop_replicate]
    congr 1
    simp only [List.length_append, length_leBytes, List.length_replicate, playString, List.length_cons,
      List.length_nil]
    omega
  rw [GameAddressTranslater.translate, hdrop]
  have hzero : (List.replicate (l - k) 0 ++ [0] : Bytes) = List.replicate (l - k + 1) 0 :=
    (List.replicate_succ').symm
  rw [hzero, translateLoop_zeros t _ _ (by rw [List.length_replicate]; omega)]
  rfl

/-- The start of a message up to its command: what is accessed leaves the buffer. -/
theorem translate_start (t : GameAddressTranslater) (hl : 28 ≤ l) (hl' : l < 2 ^ 20) (hk : 0 < k)
    (hk' : k < 25) : t.translate ((quietMessage l).take k) = none := by
  have hlen : ((quietMessage l).take k).length = k := by
    rw [List.length_take, length_quietMessage hl]
    omega
  have hmessage : t.translateMessage ((quietMessage l).take k ++ [0]) = none := by
    by_contra hsome
    obtain ⟨⟨buf', visits⟩, hmessage⟩ := Option.ne_none_iff_exists'.mp hsome
    obtain ⟨ok, hok, hmessage⟩ := Option.bind_eq_some_iff.mp hmessage
    have h6 : 5 ≤ k := by
      obtain ⟨family, hfamily, -⟩ := Option.bind_eq_some_iff.mp hok
      have hle := u16At_bound hfamily
      rw [List.length_append, hlen, List.length_singleton] at hle
      omega
    -- the zero behind the data completes the family, if need be
    obtain ⟨rest, hrest⟩ : ∃ rest, (quietMessage l).take k ++ [0] =
        leBytes 4 (0xfab * 2 ^ 20 + l) ++ [2, 0] ++ rest := by
      obtain ⟨j, rfl⟩ : ∃ j, k = 4 + (j + 1) := ⟨k - 5, by omega⟩
      have htake : (quietMessage l).take (4 + (j + 1)) = leBytes 4 (0xfab * 2 ^ 20 + l) ++ 2 ::
          (0 :: (List.replicate 14 0 ++ playString ++ List.replicate (l - 24) 0)).take j := by
        have hshape : quietMessage l = leBytes 4 (0xfab * 2 ^ 20 + l) ++ 2 ::
            0 :: (List.replicate 14 0 ++ playString ++ List.replicate (l - 24) 0) := by
          simp only [quietMessage, List.append_assoc, List.cons_append, List.nil_append]
        rw [hshape, List.take_append, length_leBytes, Nat.add_sub_cancel_left, List.take_succ_cons,
          List.take_of_length_le (by rw [length_leBytes]; omega)]
      rw [htake, List.append_assoc, List.append_assoc]
      cases j with
      | zero => exact ⟨[], rfl⟩
      | succ j => exact ⟨_, rfl⟩
    rw [hrest, (header_quiet hl hl' rest).1] at hok
    obtain rfl := Option.some.inj hok
    rw [if_pos rfl] at hmessage
    obtain ⟨buf1, hw, hmessage⟩ := Option.bind_eq_some_iff.mp hmessage
    obtain ⟨command, hcommand, -⟩ := Option.bind_eq_some_iff.mp hmessage
    have hle := u16At_bound hcommand
    have hlen1 := (writeAddress_same hw).length
    rw [List.length_append, hlen, List.length_singleton] at hlen1
    omega
  rw [GameAddressTranslater.translate, GameAddressTranslater.translateLoop, hlen, if_neg (by omega), hmessage]
  rfl

variable {g : TafnetGameNode} {tafnetNode : Node} {port p : ℕ}

theorem handleGameData_stuck (hp : g.remotePlayerIds[port]? = some p) (hp0 : p ≠ 0) {data : Bytes}
    (hne : data ≠ []) (occupied : List ℕ) (h : ∀ t : GameAddressTranslater, t.translate data = none) :
    g.handleGameData tafnetNode port .CHANNEL_TCP data occupied = none := by
  have htcp : ∀ g1 : TafnetGameNode, g1.handleTcp tafnetNode p data = none := by
    intro g1
    rw [handleTcp, translateMessageFromLocalGame, h]
    rfl
  unfold handleGameData
  rw [hp]
  dsimp only
  rw [if_neg (not_or.mpr ⟨hp0, hne⟩)]
  split
  · cases g.updateGameSenderPortsFromDplayHeader data occupied with
    | none => rfl
    | some g1 => exact htcp g1
  · exact htcp g

theorem not_forwardsTranslation_cut (hp : g.remotePlayerIds[port]? = some p) (hp0 : p ≠ 0) (hl : 28 ≤ l)
    (hl' : l < 2 ^ 20) (hk : 0 < k) (hkl : k < l) (occupied occupied' : List ℕ) :
    ¬ ForwardsTranslation tafnetNode port g
      [((quietMessage l).take k, occupied), ((quietMessage l).drop k, occupied')] := by
  intro h
  obtain ⟨g1, outs, -, -, hrun, -, -⟩ := h
  obtain ⟨⟨g2, outs2⟩, hread, hrun⟩ := Option.bind_eq_some_iff.mp hrun
  have hlen := length_quietMessage hl
  by_cases hk' : k < 25
  · rw [handleGameData_stuck hp hp0 (List.ne_nil_of_length_pos (by rw [List.length_take]; omega)) occupied
      fun t => translate_start t hl hl' hk hk'] at hread
    cases hread
  · have hp2 : g2.remotePlayerIds[port]? = some p := by rw [(handleGameData_spec hread).1.ids, hp]
    obtain ⟨⟨g3, outs3⟩, hrest, -⟩ := Option.bind_eq_some_iff.mp hrun
    obtain ⟨⟨g4, outs4⟩, hread2, -⟩ := Option.bind_eq_some_iff.mp hrest
    rw [handleGameData_stuck hp2 hp0 (List.ne_nil_of_length_pos (by rw [List.length_drop]; omega)) occupied'
      fun t => translate_rest t (by omega) hkl] at hread2
    cases hread2

/-- Reads of whole messages are forwarded as the translation of the stream, and for no length and no
place inside is a cut safe for every message of that length. -/
theorem whole_messages_forwarded (hp : g.remotePlayerIds[port]? = some p) (hp0 : p ≠ 0) (hs : g.Sized)
    (hid : tafnetNode.playerId < 2 ^ 32) :
    (∀ ms reads, (∀ m ∈ ms, ∃ spas, ControlMessage m spas) → WholeMessages ms reads →
      ForwardsTranslation tafnetNode port g reads) ∧
    ∀ l k occupied occupied', 28 ≤ l → l < 2 ^ 20 → 0 < k → k < l →
      ∃ m, ControlMessage m [] ∧ m.length = l ∧
        ¬ ForwardsTranslation tafnetNode port g [(m.take k, occupied), (m.drop k, occupied')] := by
  have ht : (g.localTranslater tafnetNode.playerId 0 (0xdead, 0xbeef)).WellSized :=
    localTranslater_wellSized hs hid (by norm_num) (by norm_num)
  constructor
  · exact fun ms reads hms hreads => forwardsTranslation_of_whole hp hp0 ht hms hreads
  · exact fun l k occupied occupied' hl hl' hk hkl => ⟨quietMessage l, controlMessage_quietMessage hl hl',
      length_quietMessage hl, not_forwardsTranslation_cut hp hp0 hl hl' hk hkl occupied occupied'⟩

theorem firstNode_sized : firstNode.Sized :=
  ⟨fun port p h => (show ∀ x ∈ firstNode.remotePlayerIds.toList, x.2 < 2 ^ 32 by decide +kernel) (port, p)
    (Table.mem_toList.mpr h), forall_live.mp (by decide +kernel)⟩

/-- Two create requests in one read and a third one in the next. -/
theorem whole_messages_forwarded_createPlayer : ForwardsTranslation (.new 1 false false 1000) 6000 firstNode
    [(createPlayer ++ createPlayer, [2300]), (createPlayer, [2300])] :=
  (@whole_messages_forwarded firstNode (.new 1 false false 1000) 6000 2 (by decide +kernel) (by decide)
    firstNode_sized (by decide +kernel)).1 [createPlayer, createPlayer, createPlayer] _
    (fun m hm => ⟨_, (by simpa using hm : m = createPlayer) ▸ controlMessage_createPlayer⟩)
    ⟨2, rfl, 1, rfl, rfl⟩

/-- A message of 56 bytes that has in its second half what looks like a header. -/
def doubleHeader : Bytes :=
  [0x38, 0, 0xb0, 0xfa, 2, 0, 0x08, 0xfc, 127, 0, 0, 1, 0, 0, 0, 0, 0, 0, 0, 0] ++ playString ++
    [0, 0, 0x0e, 0] ++
    [0x1c, 0, 0xb0, 0xfa, 2, 0, 0x08, 0xfc, 127, 0, 0, 1, 0, 0, 0, 0, 0, 0, 0, 0] ++ playString ++
    [0, 0, 0x0e, 0]

/-- Cut in the middle, its second half has its address translated. -/
theorem cut_between_headers : ControlMessage doubleHeader [] ∧
    ¬ ForwardsTranslation (.new 1 false false 1000) 6000 firstNode
      [(doubleHeader.take 28, [2300]), (doubleHeader.drop 28, [2300])] := by
  refine ⟨by constructor <;> decide +kernel, ?_⟩
  intro h
  obtain ⟨g1, outs, g2, data, hrun, htranslate, hdata⟩ := h
  have hne : (firstNode.onReadyReadTcp (.new 1 false false 1000) 6000
      [(doubleHeader.take 28, [2300]), (doubleHeader.drop 28, [2300])]).map
        (fun x => (x.2.map tcpData).flatten) ≠
      (firstNode.translateMessageFromLocalGame 1 doubleHeader 0 (0xdead, 0xbeef)).map (·.2) := by
    decide +kernel
  change firstNode.translateMessageFromLocalGame 1 doubleHeader 0 (0xdead, 0xbeef) = _ at htranslate
  rw [hrun, htranslate, Option.map_some, Option.map_some, hdata] at hne
  exact hne rfl

end cut

end TafnetGameNode

end Gpgnet4TA.Tafnet
