import Gpgnet4TA.Taflib.Crc32
import Gpgnet4TA.Tafnet.NodeSpec

/-!
# Damaged packet size tests (`TafnetNode.cpp:411-447`, `694-709`)

A size test carries the CRC of its pattern. It is answered if and only if CRC and pattern fit
and the size is within the node's limit.
-/

namespace Gpgnet4TA.Tafnet
open Gpgnet4TA.Lib Gpgnet4TA.Taflib

namespace Node

variable {n : Node} {sender addr : HostAndPort} {peer : ℕ}

theorem onPacksizeTest_eq (n : Node) (peer : ℕ) {head : Byte} {field pattern : Bytes} (hfield : field.length = 4) :
    n.onPacksizeTest peer (pattern.length + 4) (head :: (leBytes 4 (pattern.length + 4) ++ (field ++ pattern))) =
      some (if (CRC32.fullCRC pattern).toNat = leVal field ∧ pattern.length + 4 ≤ n.maxPacketSize then
        n.sendMessage peer ACTION_PACKSIZE_ACK (pattern.length + 4) [] 1 else []) := by
  have hcrc : u32At (head :: (leBytes 4 (pattern.length + 4) ++ (field ++ pattern))) 5 = some (leVal field) := by
    have hslice := sliceAt_append (head :: leBytes 4 (pattern.length + 4)) field pattern
    simp only [List.length_cons, length_leBytes, hfield, List.cons_append, List.append_assoc] at hslice
    rw [u32At, hslice, Option.map_some]
  have hdata : sliceAt (head :: (leBytes 4 (pattern.length + 4) ++ (field ++ pattern))) 9 pattern.length =
      some pattern := by
    have hslice := sliceAt_append (head :: (leBytes 4 (pattern.length + 4) ++ field)) pattern []
    simp only [List.length_cons, List.length_append, length_leBytes, hfield, List.cons_append, List.append_assoc,
      List.append_nil] at hslice
    exact hslice
  have hlen : (head :: (leBytes 4 (pattern.length + 4) ++ (field ++ pattern))).length = pattern.length + 4 + 5 := by
    simp only [List.length_cons, List.length_append, length_leBytes, hfield]
    omega
  rw [onPacksizeTest, if_pos hlen, hcrc, Nat.add_sub_cancel, hdata]
  simp only [Option.bind_eq_bind, Option.bind_some]
  split <;> rfl

theorem onDatagram_sizeTest (hroute : n.peerPlayerIds[sender]? = some peer) (now : ℤ) (throws : ℕ → Bool)
    {field pattern : Bytes} (hfield : field.length = 4) (hlen : pattern.length + 4 < 2 ^ 32) :
    n.onDatagram now throws sender (encodeMessage ACTION_PACKSIZE_TEST (pattern.length + 4) (field ++ pattern)) =
      some (n.touch peer, if (CRC32.fullCRC pattern).toNat = leVal field ∧ pattern.length + 4 ≤ n.maxPacketSize then
        (n.touch peer).sendMessage peer ACTION_PACKSIZE_ACK (pattern.length + 4) [] 1 else []) := by
  have hdec : Message.decode (encodeMessage ACTION_PACKSIZE_TEST (pattern.length + 4) (field ++ pattern)) =
      some (.packsizeTest (pattern.length + 4)) := by
    rw [decode_encodeMessage (by decide) (by decide), Nat.mod_eq_of_lt hlen]
    rfl
  have hne : encodeMessage ACTION_PACKSIZE_TEST (pattern.length + 4) (field ++ pattern) ≠ [] := by
    intro h
    rw [h] at hdec
    cases hdec
  have htest : ∀ head : Byte,
      (n.touch peer).onPacksizeTest peer (pattern.length + 4) (head :: (leBytes 4 (pattern.length + 4) ++ (field ++ pattern))) =
        some (if (CRC32.fullCRC pattern).toNat = leVal field ∧ pattern.length + 4 ≤ n.maxPacketSize then
          (n.touch peer).sendMessage peer ACTION_PACKSIZE_ACK (pattern.length + 4) [] 1 else []) :=
    fun _ => onPacksizeTest_eq (n.touch peer) peer hfield
  have hform : encodeMessage ACTION_PACKSIZE_TEST (pattern.length + 4) (field ++ pattern) =
      UInt8.ofNat (ACTION_PACKSIZE_TEST % 256) :: (leBytes 4 (pattern.length + 4) ++ (field ++ pattern)) := if_pos (by decide)
  rw [onDatagram, if_neg hne, hroute]
  simp only [hdec]
  rw [hform, htest]
  rfl

theorem sendMessage_one (haddr : n.peerAddresses[peer]? = some addr) (action seq : ℕ) (data : Bytes) :
    n.sendMessage peer action seq data 1 = [.writeDatagram addr (encodeMessage action seq data)] := by
  simp only [sendMessage, haddr]
  split <;> rfl

theorem leVal_fullCRC (pattern : Bytes) :
    leVal (leBytes 4 (CRC32.fullCRC pattern).toNat) = (CRC32.fullCRC pattern).toNat := by
  rw [leVal_leBytes]
  exact Nat.mod_eq_of_lt (CRC32.fullCRC pattern).toNat_lt

theorem packsizeTestData_eq {sz : ℕ} (h4 : 4 ≤ sz) : ∃ pattern,
    packsizeTestData sz = leBytes 4 (CRC32.fullCRC pattern).toNat ++ pattern ∧ pattern.length + 4 = sz := by
  refine ⟨((List.range sz).map UInt8.ofNat).drop 4, rfl, ?_⟩
  rw [List.length_drop, List.length_map, List.length_range]
  omega

/-- The test data `data` arrives as `data'`: either its CRC is changed or at most 32 bits in a row of
what follows. -/
inductive Damaged (crc pattern : Bytes) : Bytes → Prop
  | crc {crc' : Bytes} (hlen : crc'.length = 4) (hne : crc' ≠ crc) : Damaged crc pattern (crc' ++ pattern)
  | pattern {pattern' : Bytes} (h : Crc.Burst 32 (CRC32.bitsOf pattern) (CRC32.bitsOf pattern')) :
    Damaged crc pattern (crc ++ pattern')

/-- A damaged size test is not answered; one that arrives as it was sent is, if the size is within the limit. -/
theorem sizeTest_answered_iff (hroute : n.peerPlayerIds[sender]? = some peer)
    (haddr : n.peerAddresses[peer]? = some addr) (now : ℤ) (throws : ℕ → Bool) {sz : ℕ} (h4 : 4 ≤ sz)
    (hsz : sz < 2 ^ 32) :
    n.onDatagram now throws sender (encodeMessage ACTION_PACKSIZE_TEST sz (packsizeTestData sz)) =
        some (n.touch peer, if sz ≤ n.maxPacketSize then
          [.writeDatagram addr (encodeMessage ACTION_PACKSIZE_ACK sz [])] else []) ∧
      ∀ data', Damaged ((packsizeTestData sz).take 4) ((packsizeTestData sz).drop 4) data' →
        n.onDatagram now throws sender (encodeMessage ACTION_PACKSIZE_TEST sz data') = some (n.touch peer, []) := by
  obtain ⟨pattern, hdata, hlen⟩ := packsizeTestData_eq h4
  have htake : (packsizeTestData sz).take 4 = leBytes 4 (CRC32.fullCRC pattern).toNat := by
    rw [hdata]
    exact List.take_left' (length_leBytes 4 _)
  have hdrop : (packsizeTestData sz).drop 4 = pattern := by
    rw [hdata]
    exact List.drop_left' (length_leBytes 4 _)
  subst hlen
  rw [htake, hdrop, hdata]
  constructor
  · have hanswer := sendMessage_one (n := n.touch peer) haddr ACTION_PACKSIZE_ACK (pattern.length + 4) []
    rw [onDatagram_sizeTest hroute now throws (length_leBytes 4 _) hsz, leVal_fullCRC, hanswer]
    simp only [true_and]
  · intro data' hdamaged
    cases hdamaged with
    | crc hfield hne =>
      have hbad : (CRC32.fullCRC pattern).toNat ≠ leVal _ := fun h =>
        hne (by rw [h, ← hfield, leBytes_leVal])
      rw [onDatagram_sizeTest hroute now throws hfield hsz, if_neg fun h => hbad h.1]
    | pattern hburst =>
      have hsame := CRC32.length_of_burst hburst
      have hbad := CRC32.fullCRC_burst hburst
      rw [hsame] at hsz ⊢
      rw [onDatagram_sizeTest hroute now throws (length_leBytes 4 _) hsz, leVal_fullCRC,
        if_neg fun h => hbad (UInt32.toNat_inj.mp h.1).symm]

theorem sizeTest_answered_iff_eight :
    let n := { new 1 true false 1500 with
      peerPlayerIds := (∅ : Std.ExtTreeMap HostAndPort ℕ).insert ⟨1, 6112⟩ 5
      peerAddresses := (∅ : Std.ExtTreeMap ℕ HostAndPort).insert 5 ⟨1, 6112⟩ }
    n.onDatagram 0 (fun _ => false) ⟨1, 6112⟩ (encodeMessage ACTION_PACKSIZE_TEST 8 (packsizeTestData 8)) =
        some (n.touch 5, [.writeDatagram ⟨1, 6112⟩ (encodeMessage ACTION_PACKSIZE_ACK 8 [])]) ∧
      ∀ data', Damaged ((packsizeTestData 8).take 4) ((packsizeTestData 8).drop 4) data' →
        n.onDatagram 0 (fun _ => false) ⟨1, 6112⟩ (encodeMessage ACTION_PACKSIZE_TEST 8 data') =
          some (n.touch 5, []) :=
  sizeTest_answered_iff Std.ExtTreeMap.getElem?_insert_self Std.ExtTreeMap.getElem?_insert_self 0 _ (by decide)
    (by decide)

end Node

end Gpgnet4TA.Tafnet
