import Gpgnet4TA.Tafnet.PacketSize

/-!
# What is read from a datagram (`TafnetNode.cpp:326-524`)

One byte is all that `onReadyRead` checks for, but every action from `ACTION_TCP_DATA` on has
five bytes of header, and a size test four more. Here the datagram lies in a memory that goes
on behind it, and every range that is read from it or passed on is recorded.
-/

namespace Gpgnet4TA.Tafnet
open Gpgnet4TA.Lib

/-- A range of the datagram, or the length of a message that was put together elsewhere. -/
inductive Access where
  | read (offset len : ℕ)
  | fullCRC (offset len : ℕ)
  | insert (offset : ℕ) (len : ℤ)
  | handleMessage (offset : ℕ) (len : ℤ)
  | handleReassembled (len : ℤ)
  deriving DecidableEq

def Access.InBounds (size : ℕ) : Access → Prop
  | read offset len => offset + len ≤ size
  | fullCRC offset len => offset + len ≤ size
  | insert offset len => 0 ≤ len ∧ offset + len ≤ size
  | handleMessage offset len => 0 ≤ len ∧ offset + len ≤ size
  | handleReassembled len => 0 ≤ len

instance (size : ℕ) : DecidablePred (Access.InBounds size) := fun a => by
  cases a <;> unfold Access.InBounds <;> infer_instance

/-- The bytes of the memory behind an offset. -/
def bytesAt (mem : ℕ → Byte) (offset len : ℕ) : Bytes := (List.range len).map fun i => mem (offset + i)

/-- `testPacketSize - sizeof(std::uint32_t)` is unsigned. -/
def testDataSize (testPacketSize : ℕ) : ℕ := (testPacketSize + (2 ^ 64 - 4)) % 2 ^ 64

namespace Node

/-- What one round of the datagram loop does with the datagram of `size` bytes at the start of
`mem`. -/
def accesses (n : Node) (now : ℤ) (throws : ℕ → Bool) (sender : HostAndPort) (mem : ℕ → Byte) (size : ℕ) :
    List Access :=
  if size < 1 then []
  else match n.playerAt sender with
    | none => []
    | some peer =>
      let action := (mem 0).toNat
      let seq := leVal (bytesAt mem 1 4)
      if action = ACTION_TCP_ACK ∨ action = ACTION_TCP_RESEND then [.read 0 1, .read 1 4]
      else if action = ACTION_PACKSIZE_TEST then
        .read 0 1 :: .read 1 4 ::
          if size = seq + 5 then [.fullCRC 9 (testDataSize seq), .read 5 4] else []
      else if action = ACTION_PACKSIZE_ACK then [.read 0 1, .read 1 4]
      else if ACTION_TCP_DATA ≤ action then
        let handled := ((n.touch peer).drainAfter now throws peer seq action (bytesAt mem 5 (size - 5))).handled
        .read 0 1 :: .read 1 4 :: .insert 5 (size - 5) ::
          handled.map fun m => .handleReassembled m.2.length
      else
        .read 0 1 :: .fullCRC 0 size ::
          if ((n.touch peer).udpDuplicateDetection.isLikelyDuplicate peer 0 (bytesAt mem 0 size)).1 then []
          else [.handleMessage 1 (size - 1)]

end Node

/-- The datagram is as long as the headers of its action. -/
def WholeHeaders : Bytes → Prop
  | [] => True
  | b :: rest => b.toNat < ACTION_TCP_DATA ∨
    4 ≤ rest.length ∧ (b.toNat = ACTION_PACKSIZE_TEST → u32At (b :: rest) 1 = some (rest.length - 4) →
      8 ≤ rest.length)

instance : DecidablePred WholeHeaders := fun datas => by
  cases datas <;> unfold WholeHeaders <;> infer_instance

/-- The datagram lies at the start of the memory. -/
def Holds (mem : ℕ → Byte) (datas : Bytes) : Prop := ∀ (i : ℕ) (b : Byte), datas[i]? = some b → mem i = b

theorem sliceAt_of_holds {mem : ℕ → Byte} {datas : Bytes} (h : Holds mem datas) {offset len : ℕ}
    (hlen : offset + len ≤ datas.length) : sliceAt datas offset len = some (bytesAt mem offset len) := by
  rw [sliceAt, if_pos hlen]
  congr 1
  apply List.ext_getElem?
  intro i
  by_cases hi : i < len
  · have hin : offset + i < datas.length := by omega
    rw [List.getElem?_take_of_lt hi, List.getElem?_drop, List.getElem?_eq_getElem hin, bytesAt,
      List.getElem?_map, List.getElem?_range hi, Option.map_some, h _ _ (List.getElem?_eq_getElem hin)]
  · rw [List.getElem?_eq_none (by rw [List.length_take]; omega),
      List.getElem?_eq_none (by rw [bytesAt, List.length_map, List.length_range]; omega)]

theorem forall_header {size : ℕ} (more : List Access) :
    (∀ a ∈ Access.read 0 1 :: .read 1 4 :: more, a.InBounds size) ↔
      5 ≤ size ∧ ∀ a ∈ more, a.InBounds size := by
  simp only [List.forall_mem_cons, Access.InBounds]
  constructor
  · intro h
    obtain ⟨-, h5, hmore⟩ := h
    exact ⟨h5, hmore⟩
  · intro h
    obtain ⟨h5, hmore⟩ := h
    exact ⟨by omega, h5, hmore⟩

/-- Behind a header that is there, a size test reads its CRC and the bytes after it. -/
theorem forall_test {size seq : ℕ} (hsize : 5 ≤ size) (hseq : seq < 2 ^ 32) :
    (∀ a ∈ (if size = seq + 5 then [.fullCRC 9 (testDataSize seq), .read 5 4] else [] : List Access),
      a.InBounds size) ↔
      (seq = size - 5 → 9 ≤ size) := by
  by_cases heq : size = seq + 5
  · rw [if_pos heq]
    simp only [List.forall_mem_cons, Access.InBounds, testDataSize]
    constructor
    · intro hx _
      obtain ⟨-, h, -⟩ := hx
      exact h
    · intro h
      have h9 := h (by omega)
      refine ⟨?_, h9, by simp⟩
      omega
  · rw [if_neg heq]
    refine iff_of_true (by simp) (fun he => ?_)
    omega

theorem wholeHeaders_of_lt {b : Byte} (h : b.toNat < ACTION_TCP_DATA) (rest : Bytes) : WholeHeaders (b :: rest) :=
  Or.inl h

theorem wholeHeaders_of_le {b : Byte} (h : ACTION_TCP_DATA ≤ b.toNat) (htest : b.toNat ≠ ACTION_PACKSIZE_TEST)
    (rest : Bytes) : WholeHeaders (b :: rest) ↔ 5 ≤ (b :: rest).length := by
  rw [WholeHeaders, List.length_cons]
  constructor
  · intro hx
    obtain hlt | ⟨h4, -⟩ := hx
    · omega
    · omega
  · intro h5
    exact Or.inr ⟨by omega, fun he => absurd he htest⟩

theorem wholeHeaders_test {b : Byte} (htest : b.toNat = ACTION_PACKSIZE_TEST) (rest : Bytes) :
    WholeHeaders (b :: rest) ↔ 5 ≤ (b :: rest).length ∧ ∀ seq, u32At (b :: rest) 1 = some seq →
      seq = (b :: rest).length - 5 → 9 ≤ (b :: rest).length := by
  rw [WholeHeaders, List.length_cons, Nat.add_sub_add_right _ 1 4]
  constructor
  · intro hx
    obtain hlt | ⟨h4, h⟩ := hx
    · rw [htest] at hlt
      exact absurd hlt (by decide)
    · refine ⟨by omega, fun seq hseq he => ?_⟩
      rw [he] at hseq
      have := h htest hseq
      omega
  · intro hx
    obtain ⟨h5, h⟩ := hx
    refine Or.inr ⟨by omega, fun _ hseq => ?_⟩
    have := h _ hseq rfl
    omega

namespace Node

/-- A datagram from a registered peer is read within its bounds exactly when it is as long as
the headers of its action. -/
theorem accesses_inBounds_iff (n : Node) (now : ℤ) (throws : ℕ → Bool) {sender : HostAndPort} {peer : ℕ}
    (hpeer : n.playerAt sender = some peer) {mem : ℕ → Byte} {datas : Bytes} (hmem : Holds mem datas)
    (hne : datas ≠ []) :
    (∀ a ∈ n.accesses now throws sender mem datas.length, a.InBounds datas.length) ↔ WholeHeaders datas := by
  cases datas with
  | nil => exact absurd rfl hne
  | cons b rest =>
    have hb : mem 0 = b := hmem 0 b rfl
    have hsize : ¬ (b :: rest).length < 1 := by simp
    have hnone : ∀ a ∈ ([] : List Access), a.InBounds (b :: rest).length := by simp
    rw [accesses, if_neg hsize, hpeer]
    dsimp only
    rw [hb]
    by_cases hack : b.toNat = ACTION_TCP_ACK ∨ b.toNat = ACTION_TCP_RESEND
    · have hle : ACTION_TCP_DATA ≤ b.toNat ∧ b.toNat ≠ ACTION_PACKSIZE_TEST := by
        rcases hack with hack | hack <;> rw [hack] <;> decide
      rw [if_pos hack, forall_header, wholeHeaders_of_le hle.1 hle.2]
      exact and_iff_left hnone
    rw [if_neg hack]
    by_cases htest : b.toNat = ACTION_PACKSIZE_TEST
    · rw [if_pos htest, forall_header, wholeHeaders_test htest]
      apply and_congr_right
      intro h5
      have hslice : sliceAt (b :: rest) 1 4 = some (bytesAt mem 1 4) := sliceAt_of_holds hmem h5
      have hseq : u32At (b :: rest) 1 = some (leVal (bytesAt mem 1 4)) := by rw [u32At, hslice, Option.map_some]
      rw [forall_test h5 (u32At_lt hseq), hseq]
      simp only [Option.some.injEq, forall_eq']
    rw [if_neg htest]
    by_cases hpack : b.toNat = ACTION_PACKSIZE_ACK
    · rw [if_pos hpack, forall_header, wholeHeaders_of_le (by rw [hpack]; decide) htest]
      exact and_iff_left hnone
    rw [if_neg hpack]
    by_cases hdata : ACTION_TCP_DATA ≤ b.toNat
    · rw [if_pos hdata, forall_header, wholeHeaders_of_le hdata htest]
      apply and_iff_left_of_imp
      intro h5
      rw [List.forall_mem_cons]
      constructor
      · simp only [Access.InBounds]
        omega
      · intro a ha
        obtain ⟨m, -, rfl⟩ := List.mem_map.mp ha
        exact Int.natCast_nonneg _
    · rw [if_neg hdata]
      refine iff_of_true ?_ (wholeHeaders_of_lt (Nat.not_le.mp hdata) rest)
      rw [List.forall_mem_cons, List.forall_mem_cons]
      refine ⟨by simp [Access.InBounds], by simp [Access.InBounds], ?_⟩
      split
      · exact hnone
      · simp [Access.InBounds, add_comm]

/-- The memory in which a datagram is followed by zeros. -/
def zeroed (datas : Bytes) : ℕ → Byte := fun i => datas.getD i 0

theorem holds_zeroed (datas : Bytes) : Holds (zeroed datas) datas := by
  intro i b h
  rw [zeroed, List.getD_eq_getElem?_getD, h]
  rfl

/-- A node with one registered peer. -/
def onePeer : Node := (Node.new 1 false false 1500).resetPeer ⟨1, 6112⟩ 2

theorem playerAt_onePeer : onePeer.playerAt ⟨1, 6112⟩ = some 2 := by decide +kernel

/-- A size test of four bytes and the acknowledgement of a size: nine bytes and five. -/
theorem accesses_inBounds_shortest :
    (∀ a ∈ onePeer.accesses 0 (fun _ => false) ⟨1, 6112⟩ (zeroed [11, 4, 0, 0, 0, 0, 0, 0, 0]) 9, a.InBounds 9) ∧
      ∀ a ∈ onePeer.accesses 0 (fun _ => false) ⟨1, 6112⟩ (zeroed [12, 250, 0, 0, 0]) 5, a.InBounds 5 :=
  ⟨(accesses_inBounds_iff onePeer 0 _ playerAt_onePeer (holds_zeroed _) (by decide)).mpr (by decide +kernel),
    (accesses_inBounds_iff onePeer 0 _ playerAt_onePeer (holds_zeroed _) (by decide)).mpr (by decide +kernel)⟩

/-- One byte that says `ACTION_TCP_DATA`, to a node that has just connected: the number behind
it is read and minus four bytes are inserted. -/
theorem headerOnly_outOfBounds : ∃ n, run nodeStep (.new 1 false false 1500) [.connectToPeer 0 ⟨1, 6112⟩ 2] = some n ∧
    n.playerAt ⟨1, 6112⟩ = some 2 ∧
    .read 1 4 ∈ n.accesses 0 (fun _ => false) ⟨1, 6112⟩ (zeroed [5]) 1 ∧
    .insert 5 (-4) ∈ n.accesses 0 (fun _ => false) ⟨1, 6112⟩ (zeroed [5]) 1 ∧
    ¬ ∀ a ∈ n.accesses 0 (fun _ => false) ⟨1, 6112⟩ (zeroed [5]) 1, a.InBounds 1 := by
  have hrun : (run nodeStep (.new 1 false false 1500) [.connectToPeer 0 ⟨1, 6112⟩ 2]).map (fun n =>
      (n.playerAt ⟨1, 6112⟩, (n.accesses 0 (fun _ => false) ⟨1, 6112⟩ (zeroed [5]) 1))) =
      some (some 2, [.read 0 1, .read 1 4, .insert 5 (-4)]) := by
    decide +kernel
  obtain ⟨n, hn, hview⟩ := Option.map_eq_some_iff.mp hrun
  obtain ⟨hpeer, haccesses⟩ := Prod.mk.inj hview
  refine ⟨n, hn, hpeer, ?_⟩
  rw [haccesses]
  decide

/-! ### The partial reads of the model -/

theorem onPacksizeTest_isSome_iff (n : Node) (peer seq : ℕ) {datas : Bytes} (h5 : 5 ≤ datas.length) :
    (n.onPacksizeTest peer seq datas).isSome ↔ (seq = datas.length - 5 → 9 ≤ datas.length) := by
  rw [onPacksizeTest]
  by_cases heq : datas.length = seq + 5
  · rw [if_pos heq]
    by_cases h9 : 9 ≤ datas.length
    · refine iff_of_true ?_ fun _ => h9
      simp only [u32At, sliceAt, if_pos (show 5 + 4 ≤ datas.length from h9),
        if_pos (show 9 + (seq - 4) ≤ datas.length by omega), Option.map_some, Option.bind_some, bind]
      split <;> rfl
    · refine iff_of_false ?_ fun h => h9 (h (by omega))
      simp [u32At, sliceAt, h9]
  · rw [if_neg heq]
    exact iff_of_true rfl fun he => by omega

/-- A datagram has a result in the model exactly when everything is read within its bounds. -/
theorem onDatagram_isSome_iff (n : Node) (now : ℤ) (throws : ℕ → Bool) {sender : HostAndPort} {peer : ℕ}
    (hpeer : n.playerAt sender = some peer) {datas : Bytes} (hne : datas ≠ []) :
    (n.onDatagram now throws sender datas).isSome ↔ WholeHeaders datas := by
  cases datas with
  | nil => exact absurd rfl hne
  | cons b rest =>
    have hpeer' : n.peerPlayerIds[sender]? = some peer := hpeer
    rw [onDatagram, if_neg hne, hpeer']
    dsimp only
    by_cases hlt : b.toNat < ACTION_TCP_DATA
    · rw [decode_cons_of_lt hlt]
      exact iff_of_true rfl (wholeHeaders_of_lt hlt rest)
    have hle : ACTION_TCP_DATA ≤ b.toNat := Nat.not_lt.mp hlt
    rw [decode_cons_of_le hle]
    by_cases h5 : 5 ≤ (b :: rest).length
    · have hseq : u32At (b :: rest) 1 = some (leVal (((b :: rest).drop 1).take 4)) := by
        rw [u32At, sliceAt, if_pos h5, Option.map_some]
      rw [hseq, Option.map_some]
      by_cases htest : b.toNat = ACTION_PACKSIZE_TEST
      · have hof : ∀ seq data, Message.ofAction b.toNat seq data = .packsizeTest seq := by
          intro seq data
          rw [htest]
          rfl
        rw [hof, wholeHeaders_test htest, hseq, and_iff_right h5]
        simp only [Option.isSome_map, Option.some.injEq, forall_eq']
        exact onPacksizeTest_isSome_iff _ peer _ h5
      · refine iff_of_true ?_ ((wholeHeaders_of_le hle htest rest).mpr h5)
        rw [Message.ofAction, if_neg htest]
        split_ifs <;> rfl
    · have hnone : u32At (b :: rest) 1 = none := by
        rw [u32At, sliceAt, if_neg h5, Option.map_none]
      rw [hnone, Option.map_none]
      refine iff_of_false (by simp) fun h => h5 ?_
      by_cases htest : b.toNat = ACTION_PACKSIZE_TEST
      · exact ((wholeHeaders_test htest rest).mp h).1
      · exact (wholeHeaders_of_le hle htest rest).mp h

end Node

end Gpgnet4TA.Tafnet
