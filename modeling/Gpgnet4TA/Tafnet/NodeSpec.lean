import Gpgnet4TA.Lib.Arq
import Gpgnet4TA.Lib.Reassembly
import Gpgnet4TA.Tafnet.Node

/-!
# What the handlers of a node do to one connection

A connection to a peer is the node's send buffer, receive buffer and reassembly
buffer for it (`Endpoint`). Each handler gets one lemma about the endpoint and
one about the datagrams it writes; the resend statistics only decide how often a
datagram is repeated.
-/

namespace Gpgnet4TA.Tafnet
open Gpgnet4TA.Lib

/-! ### The wire format -/

/-- The kinds of message behind the reliable header. -/
def Message.ofAction (action seq : ℕ) (data : Bytes) : Message :=
  if action = ACTION_TCP_ACK then .tcpAck seq
  else if action = ACTION_TCP_RESEND then .tcpResend seq
  else if action = ACTION_PACKSIZE_TEST then .packsizeTest seq
  else if action = ACTION_PACKSIZE_ACK then .packsizeAck seq
  else .reliable seq action data

theorem u32At_cons (b : Byte) (x : ℕ) (data : Bytes) :
    u32At (b :: (leBytes 4 x ++ data)) 1 = some (x % 2 ^ 32) := by
  have h : sliceAt (b :: (leBytes 4 x ++ data)) 1 4 = some (leBytes 4 x) := by
    have h := sliceAt_append [b] (leBytes 4 x) data
    rw [length_leBytes] at h
    exact h
  simp only [u32At, h, Option.map_some, leVal_leBytes]
  norm_num

theorem decode_encodeMessage {action : ℕ} (h1 : ACTION_TCP_DATA ≤ action) (h2 : action < 256)
    (seq : ℕ) (data : Bytes) :
    Message.decode (encodeMessage action seq data) =
      some (Message.ofAction action (seq % 2 ^ 32) data) := by
  have hb : (UInt8.ofNat (action % 256)).toNat = action := by
    rw [UInt8.toNat_ofNat']
    omega
  have hlt : ¬ action < ACTION_TCP_DATA := by omega
  have hdrop : (leBytes 4 seq ++ data).drop 4 = data := by
    rw [List.drop_append_of_le_length (by simp)]
    simp [List.drop_of_length_le]
  simp only [encodeMessage, if_pos h1, Message.decode, hb, if_neg hlt, u32At_cons, Option.map_some,
    hdrop, Message.ofAction]

theorem decode_other_lt {datas : Bytes} {action : ℕ} {data : Bytes}
    (h : Message.decode datas = some (.other action data)) : action < ACTION_TCP_DATA := by
  cases datas with
  | nil => cases h
  | cons b rest =>
    simp only [Message.decode] at h
    split at h
    · rename_i hb
      cases h
      exact hb
    · obtain ⟨seq, -, hs⟩ := Option.map_eq_some_iff.mp h
      split_ifs at hs

theorem decode_encodeMessage_other {action : ℕ} (h : action < ACTION_TCP_DATA) (seq : ℕ)
    (data : Bytes) : Message.decode (encodeMessage action seq data) = some (.other action data) := by
  have hb : (UInt8.ofNat (action % 256)).toNat = action := by
    rw [UInt8.toNat_ofNat']
    simp only [ACTION_TCP_DATA] at h
    omega
  simp only [encodeMessage, if_neg (Nat.not_le.mpr h), Message.decode, hb, if_pos h]

/-- The actions that carry reliable data: those a message may have, and `ACTION_MORE`. -/
def reliableActions : List ℕ :=
  [ACTION_TCP_DATA, ACTION_MORE, ACTION_ENUM, ACTION_UDP_PROTECTED, ACTION_HELLO]

theorem ofAction_reliable {action : ℕ} (h : action ∈ reliableActions) (seq : ℕ) (data : Bytes) :
    ACTION_TCP_DATA ≤ action ∧ action < 256 ∧
      Message.ofAction action seq data = .reliable seq action data := by
  fin_cases h <;> exact ⟨by decide, by decide, rfl⟩

theorem decode_reliable {action seq : ℕ} (h : action ∈ reliableActions) (hseq : seq < 2 ^ 32)
    (data : Bytes) :
    Message.decode (encodeMessage action seq data) = some (.reliable seq action data) := by
  obtain ⟨h1, h2, h3⟩ := ofAction_reliable h seq data
  rw [decode_encodeMessage h1 h2, Nat.mod_eq_of_lt hseq, h3]

theorem decode_ack {seq : ℕ} (hseq : seq < 2 ^ 32) :
    Message.decode (encodeMessage ACTION_TCP_ACK seq []) = some (.tcpAck seq) := by
  rw [decode_encodeMessage (by decide) (by decide), Nat.mod_eq_of_lt hseq]
  rfl

theorem decode_not_ack_of_reliable {action seq s : ℕ} (h : action ∈ reliableActions) (data : Bytes) :
    Message.decode (encodeMessage action seq data) ≠ some (.tcpAck s) := by
  obtain ⟨h1, h2, -⟩ := ofAction_reliable h seq data
  rw [decode_encodeMessage h1 h2, (ofAction_reliable h _ data).2.2]
  intro he
  cases he

theorem u32At_lt {bs : Bytes} {ofs x : ℕ} (h : u32At bs ofs = some x) : x < 2 ^ 32 := by
  obtain ⟨s, hs, rfl⟩ := Option.map_eq_some_iff.mp h
  have hlt := leVal_lt s
  rw [length_of_sliceAt hs] at hlt
  norm_num at hlt ⊢
  exact hlt

/-- The kinds of message that are read behind the five bytes of the reliable header. -/
theorem decode_cons_of_le {b : Byte} (h : ACTION_TCP_DATA ≤ b.toNat) (rest : Bytes) :
    Message.decode (b :: rest) =
      (u32At (b :: rest) 1).map fun seq => Message.ofAction b.toNat seq (rest.drop 4) := by
  simp only [Message.decode, if_neg (Nat.not_lt.mpr h), Message.ofAction]

theorem decode_cons_of_lt {b : Byte} (h : b.toNat < ACTION_TCP_DATA) (rest : Bytes) :
    Message.decode (b :: rest) = some (.other b.toNat rest) := by
  simp only [Message.decode, if_pos h]

theorem ofAction_eq_reliable {action seq seq' action' : ℕ} {data data' : Bytes}
    (h : Message.ofAction action seq data = .reliable seq' action' data') :
    seq = seq' ∧ action = action' ∧ data = data' := by
  unfold Message.ofAction at h
  split_ifs at h
  cases h
  exact ⟨rfl, rfl, rfl⟩

theorem ofAction_eq_packsizeAck {action seq seq' : ℕ} {data : Bytes}
    (h : Message.ofAction action seq data = .packsizeAck seq') : seq = seq' := by
  unfold Message.ofAction at h
  split_ifs at h
  cases h
  rfl

theorem ofAction_of_decode {buf : Bytes} {m : Message} (h : Message.decode buf = some m)
    (hm : ∀ action data, m ≠ .other action data) :
    ∃ b rest seq, buf = b :: rest ∧ u32At buf 1 = some seq ∧ Message.ofAction b.toNat seq (rest.drop 4) = m := by
  cases buf with
  | nil => cases h
  | cons b rest =>
    by_cases hb : b.toNat < ACTION_TCP_DATA
    · rw [decode_cons_of_lt hb] at h
      exact absurd (Option.some.inj h).symm (hm _ _)
    · rw [decode_cons_of_le (Nat.not_lt.mp hb)] at h
      obtain ⟨seq, hseq, he⟩ := Option.map_eq_some_iff.mp h
      exact ⟨b, rest, seq, rfl, hseq, he⟩

theorem decode_reliable_lt {buf : Bytes} {seq action : ℕ} {data : Bytes}
    (h : Message.decode buf = some (.reliable seq action data)) : seq < 2 ^ 32 := by
  obtain ⟨b, rest, k, -, hk, he⟩ := ofAction_of_decode h (by simp)
  obtain ⟨rfl, -, -⟩ := ofAction_eq_reliable he
  exact u32At_lt hk

theorem decode_packsizeAck_lt {buf : Bytes} {size : ℕ}
    (h : Message.decode buf = some (.packsizeAck size)) : size < 2 ^ 32 := by
  obtain ⟨b, rest, k, -, hk, he⟩ := ofAction_of_decode h (by simp)
  obtain rfl := ofAction_eq_packsizeAck he
  exact u32At_lt hk

theorem decode_reliable_action {buf : Bytes} {seq action : ℕ} {data : Bytes}
    (h : Message.decode buf = some (.reliable seq action data)) : action < 256 := by
  obtain ⟨b, rest, k, -, -, he⟩ := ofAction_of_decode h (by simp)
  obtain ⟨-, rfl, -⟩ := ofAction_eq_reliable he
  exact b.toNat_lt

theorem decode_resend (seq : ℕ) :
    Message.decode (encodeMessage ACTION_TCP_RESEND seq []) = some (.tcpResend (seq % 2 ^ 32)) := by
  rw [decode_encodeMessage (by decide) (by decide)]
  rfl

/-! ### Fragments -/

theorem fragmentLoop_pieces {size : ℕ} (action : ℕ) (data : Bytes) (hsize : 0 < size) :
    ∀ fuel off, off < data.length → data.length - off ≤ fuel →
      Reassembly.Pieces ACTION_MORE action (data.drop off) (fragmentLoop action size data fuel off) := by
  intro fuel
  induction fuel with
  | zero =>
    intro off h1 h2
    omega
  | succ fuel ih =>
    intro off h1 h2
    simp only [fragmentLoop, if_pos h1]
    by_cases hlast : data.length ≤ off + size
    · have hsz : min size (data.length - off) = data.length - off := by omega
      have hend : fragmentLoop action size data fuel (off + size) = [] := by
        cases fuel with
        | zero => rfl
        | succ fuel => simp only [fragmentLoop, if_neg (by omega : ¬ off + size < data.length)]
      have htake : (data.drop off).take (data.length - off) = data.drop off :=
        List.take_of_length_le (by simp)
      rw [hsz, if_pos (by omega), hend, htake]
      exact .last _
    · have hsz : min size (data.length - off) = size := by omega
      have hsplit : data.drop off = (data.drop off).take size ++ data.drop (off + size) := by
        rw [← List.drop_drop, List.take_append_drop]
      rw [hsz, if_neg (by omega), hsplit, List.take_left' (by simp; omega)]
      exact .cons _ _ _ (ih (off + size) (by omega) (by omega))

/-- A message is cut into pieces that the receiver puts together again. -/
theorem fragments_pieces {size : ℕ} (action : ℕ) {data : Bytes} (hsize : 0 < size)
    (hdata : 0 < data.length) :
    Reassembly.Pieces ACTION_MORE action data (fragments action size data) :=
  fragmentLoop_pieces action data hsize data.length 0 hdata (by omega)

theorem fragmentSize_pos (limit peerSize len : ℕ) : 0 < fragmentSize limit peerSize len :=
  lt_of_lt_of_le (by decide) (le_max_right _ _)

/-! ### Endpoints -/

structure Endpoint where
  send : DataBuffer
  receive : DataBuffer
  reassembly : Bytes

def Endpoint.new : Endpoint := ⟨.new, .new, []⟩

namespace Node

def endpoint (n : Node) (peer : ℕ) : Endpoint :=
  ⟨n.sendBufferOf peer, n.receiveBufferOf peer, n.reassemblyBufferOf peer⟩

/-- The two address tables. -/
def routes (n : Node) : Std.ExtTreeMap ℕ HostAndPort × Std.ExtTreeMap HostAndPort ℕ :=
  (n.peerAddresses, n.peerPlayerIds)

section setters

variable (n : Node) (peer : ℕ)

@[simp] theorem endpoint_setSendBuffer (b : DataBuffer) :
    (n.setSendBuffer peer b).endpoint peer = { n.endpoint peer with send := b } := by
  simp [endpoint, setSendBuffer, sendBufferOf, receiveBufferOf, reassemblyBufferOf]

@[simp] theorem endpoint_setReceiveBuffer (b : DataBuffer) :
    (n.setReceiveBuffer peer b).endpoint peer = { n.endpoint peer with receive := b } := by
  simp [endpoint, setReceiveBuffer, sendBufferOf, receiveBufferOf, reassemblyBufferOf]

@[simp] theorem endpoint_setReassemblyBuffer (b : Bytes) :
    (n.setReassemblyBuffer peer b).endpoint peer = { n.endpoint peer with reassembly := b } := by
  simp [endpoint, setReassemblyBuffer, sendBufferOf, receiveBufferOf, reassemblyBufferOf]

@[simp] theorem endpoint_setResendRate (q : ℕ) (r : ResendRate) :
    (n.setResendRate q r).endpoint peer = n.endpoint peer := rfl

@[simp] theorem endpoint_setResendRequestEnabled (q : ℕ) (v : Bool) :
    (n.setResendRequestEnabled q v).endpoint peer = n.endpoint peer := rfl

@[simp] theorem routes_setSendBuffer (b : DataBuffer) :
    (n.setSendBuffer peer b).routes = n.routes := rfl
@[simp] theorem routes_setReceiveBuffer (b : DataBuffer) :
    (n.setReceiveBuffer peer b).routes = n.routes := rfl
@[simp] theorem routes_setReassemblyBuffer (b : Bytes) :
    (n.setReassemblyBuffer peer b).routes = n.routes := rfl
@[simp] theorem routes_setResendRate (r : ResendRate) :
    (n.setResendRate peer r).routes = n.routes := rfl
@[simp] theorem routes_setResendRequestEnabled (v : Bool) :
    (n.setResendRequestEnabled peer v).routes = n.routes := rfl

@[simp] theorem endpoint_touch : (n.touch peer).endpoint peer = n.endpoint peer := by
  simp [touch]
  rfl

@[simp] theorem routes_touch : (n.touch peer).routes = n.routes := rfl

end setters

/-- Everything `sendMessage` writes is one datagram to the peer's address. -/
theorem mem_sendMessage {n : Node} {peer action seq : ℕ} {data : Bytes} {k : ℤ} {o : Output}
    (h : o ∈ n.sendMessage peer action seq data k) :
    ∃ addr, n.routes.1[peer]? = some addr ∧ o = .writeDatagram addr (encodeMessage action seq data) := by
  unfold sendMessage at h
  cases ha : n.peerAddresses[peer]? with
  | none => simp [ha] at h
  | some addr =>
    rw [ha] at h
    exact ⟨addr, ha, List.eq_of_mem_replicate h⟩

/-! ### Sending -/

theorem endpoint_sendFragment (n : Node) (now : ℤ) (peer : ℕ) (f : Fragment) :
    (n.sendFragment now peer f).1.endpoint peer =
      { n.endpoint peer with send := ((n.endpoint peer).send.pushBack now f.1 f.2).2 } := by
  simp only [sendFragment, endpoint_setSendBuffer, endpoint_setResendRate]
  rfl

theorem routes_sendFragment (n : Node) (now : ℤ) (peer : ℕ) (f : Fragment) :
    (n.sendFragment now peer f).1.routes = n.routes := rfl

theorem mem_sendFragment {n : Node} {now : ℤ} {peer : ℕ} {f : Fragment} {o : Output}
    (h : o ∈ (n.sendFragment now peer f).2) :
    ∃ addr, n.routes.1[peer]? = some addr ∧
      o = .writeDatagram addr (encodeMessage f.1 (n.endpoint peer).send.nextPushSeq f.2) := by
  obtain ⟨addr, ha, ho⟩ := mem_sendMessage h
  exact ⟨addr, ha, ho⟩

theorem mem_sendFragments {now : ℤ} {peer : ℕ} {o : Output} (fs : List Fragment) (n : Node)
    (h : o ∈ (sendFragments now peer n fs).2) :
    ∃ addr seq, ∃ f ∈ fs, n.routes.1[peer]? = some addr ∧
      o = .writeDatagram addr (encodeMessage f.1 seq f.2) := by
  induction fs generalizing n with
  | nil => simp [sendFragments] at h
  | cons f fs ih =>
    rcases List.mem_append.mp h with h | h
    · obtain ⟨addr, ha, ho⟩ := mem_sendFragment h
      exact ⟨addr, _, f, List.mem_cons_self .., ha, ho⟩
    · obtain ⟨addr, seq, g, hg, ha, ho⟩ := ih _ h
      exact ⟨addr, seq, g, List.mem_cons_of_mem _ hg, ha, ho⟩

theorem routes_sendFragments (now : ℤ) (peer : ℕ) (n : Node) (fs : List Fragment) :
    (sendFragments now peer n fs).1.routes = n.routes := by
  induction fs generalizing n with
  | nil => rfl
  | cons f fs ih => exact (ih _).trans (routes_sendFragment n now peer f)

theorem receive_sendFragments (now : ℤ) (peer : ℕ) (n : Node) (fs : List Fragment) :
    ((sendFragments now peer n fs).1.endpoint peer).receive = (n.endpoint peer).receive ∧
      ((sendFragments now peer n fs).1.endpoint peer).reassembly = (n.endpoint peer).reassembly := by
  induction fs generalizing n with
  | nil => exact ⟨rfl, rfl⟩
  | cons f fs ih =>
    have h := ih (n.sendFragment now peer f).1
    rw [endpoint_sendFragment] at h
    exact h

theorem routes_resetPeer (n : Node) (addr : HostAndPort) (peer : ℕ) :
    (n.resetPeer addr peer).routes = (n.routes.1.insert peer addr, n.routes.2.insert addr peer) := rfl

theorem endpoint_resetPeer (n : Node) (addr : HostAndPort) (peer : ℕ) :
    (n.resetPeer addr peer).endpoint peer = .new := by
  simp [endpoint, resetPeer, sendBufferOf, receiveBufferOf, reassemblyBufferOf, Endpoint.new]

/-! ### Resending -/

theorem mem_resendLoop {n : Node} {peer : ℕ} {tNow timeout : ℤ} {o : Output} (k : ℕ)
    (ps : List (ℕ × Payload)) (stats : ResendRate)
    (h : o ∈ (n.resendLoop peer tNow timeout k ps stats).2) :
    ∃ addr seq p, (seq, p) ∈ ps ∧ n.routes.1[peer]? = some addr ∧
      o = .writeDatagram addr (encodeMessage p.action seq p.buf) := by
  induction k generalizing ps stats with
  | zero => simp [resendLoop] at h
  | succ k ih =>
    cases ps with
    | nil => simp [resendLoop] at h
    | cons x rest =>
      obtain ⟨seq, p⟩ := x
      simp only [resendLoop] at h
      split at h
      · simp at h
      · rcases List.mem_append.mp h with h | h
        · obtain ⟨addr, ha, ho⟩ := mem_sendMessage h
          exact ⟨addr, seq, p, List.mem_cons_self .., ha, ho⟩
        · obtain ⟨addr, s, q, hq, ha, ho⟩ := ih rest _ h
          exact ⟨addr, s, q, List.mem_cons_of_mem _ hq, ha, ho⟩

theorem mem_resendPeers {tNow : ℤ} {o : Output} (bs : List (ℕ × DataBuffer)) (n : Node)
    (h : o ∈ (resendPeers tNow n bs).2) :
    ∃ addr peer b seq p, (peer, b) ∈ bs ∧ b.get seq = some p ∧ n.routes.1[peer]? = some addr ∧
      o = .writeDatagram addr (encodeMessage p.action seq p.buf) := by
  induction bs generalizing n with
  | nil => simp [resendPeers] at h
  | cons x rest ih =>
    obtain ⟨peer, b⟩ := x
    simp only [resendPeers] at h
    rcases List.mem_append.mp h with h | h
    · obtain ⟨addr, seq, p, hp, ha, ho⟩ := mem_resendLoop _ _ _ h
      exact ⟨addr, peer, b, seq, p, List.mem_cons_self ..,
        Std.ExtTreeMap.mem_toList_iff_getElem?_eq_some.mp hp, ha, ho⟩
    · obtain ⟨addr, q, b', seq, p, hb, hp, ha, ho⟩ := ih _ h
      exact ⟨addr, q, b', seq, p, List.mem_cons_of_mem _ hb, hp, ha, ho⟩

theorem resendPeers_frame (tNow : ℤ) (peer : ℕ) (n : Node) (bs : List (ℕ × DataBuffer)) :
    (resendPeers tNow n bs).1.endpoint peer = n.endpoint peer ∧
      (resendPeers tNow n bs).1.routes = n.routes := by
  induction bs generalizing n with
  | nil => exact ⟨rfl, rfl⟩
  | cons x rest ih => exact ih _

/-- What the resend timer writes is stored in the send buffer of a known peer. -/
theorem mem_onResendTimer {n : Node} {tNow : ℤ} {o : Output} (h : o ∈ (n.onResendTimer tNow).2) :
    ∃ addr peer seq p, (n.endpoint peer).send.get seq = some p ∧ n.routes.1[peer]? = some addr ∧
      o = .writeDatagram addr (encodeMessage p.action seq p.buf) := by
  obtain ⟨addr, peer, b, seq, p, hb, hp, ha, ho⟩ := mem_resendPeers _ _ h
  have hb' : n.sendBuffer[peer]? = some b := Std.ExtTreeMap.mem_toList_iff_getElem?_eq_some.mp hb
  refine ⟨addr, peer, seq, p, ?_, ha, ho⟩
  have hv : (n.endpoint peer).send = b := by
    simp [endpoint, sendBufferOf, Std.ExtTreeMap.getD_eq_getD_getElem?, hb']
  rw [hv]
  exact hp

theorem onResendTimer_frame (n : Node) (tNow : ℤ) (peer : ℕ) :
    (n.onResendTimer tNow).1.endpoint peer = n.endpoint peer ∧
      (n.onResendTimer tNow).1.routes = n.routes :=
  resendPeers_frame tNow peer n _

/-! ### Receiving -/

theorem endpoint_onTcpAck (n : Node) (peer seq : ℕ) :
    (n.onTcpAck peer seq).endpoint peer =
      { n.endpoint peer with send := ((n.endpoint peer).send.ackData seq).2 } := by
  unfold onTcpAck
  simp only []
  split <;> simp <;> rfl

theorem routes_onTcpAck (n : Node) (peer seq : ℕ) : (n.onTcpAck peer seq).routes = n.routes := by
  unfold onTcpAck
  simp only []
  split <;> rfl

theorem onTcpResend_frame (n : Node) (peer seq : ℕ) :
    (n.onTcpResend peer seq).1.endpoint peer = n.endpoint peer ∧
      (n.onTcpResend peer seq).1.routes = n.routes := by
  unfold onTcpResend
  cases (n.sendBufferOf peer).get seq with
  | none => exact ⟨rfl, rfl⟩
  | some data => exact ⟨rfl, rfl⟩

theorem mem_onTcpResend {n : Node} {peer seq : ℕ} {o : Output} (h : o ∈ (n.onTcpResend peer seq).2) :
    ∃ addr p, (n.endpoint peer).send.get seq = some p ∧ n.routes.1[peer]? = some addr ∧
      o = .writeDatagram addr (encodeMessage p.action seq p.buf) := by
  unfold onTcpResend at h
  cases hd : (n.sendBufferOf peer).get seq with
  | none => simp [hd] at h
  | some data =>
    rw [hd] at h
    obtain ⟨addr, ha, ho⟩ := mem_sendMessage h
    exact ⟨addr, data, hd, ha, ho⟩

/-- All that a test of the packet size has sent is its acknowledgement. -/
theorem mem_onPacksizeTest {n : Node} {peer size : ℕ} {datas : Bytes} {out : List Output} {o : Output}
    (h : n.onPacksizeTest peer size datas = some out) (ho : o ∈ out) :
    ∃ addr, n.routes.1[peer]? = some addr ∧
      o = .writeDatagram addr (encodeMessage ACTION_PACKSIZE_ACK size []) := by
  unfold onPacksizeTest at h
  split at h
  · obtain ⟨crc, -, h⟩ := Option.bind_eq_some_iff.mp h
    obtain ⟨test, -, h⟩ := Option.bind_eq_some_iff.mp h
    split at h
    · cases h
      exact mem_sendMessage ho
    · cases h
      simp at ho
  · cases h
    simp at ho

/-- Popping from a receive buffer, one fragment after the other. -/
inductive Pops : DataBuffer → List Fragment → DataBuffer → Prop
  | nil (b : DataBuffer) : Pops b [] b
  | cons {b b' : DataBuffer} {p : Payload} {fs : List Fragment} {b'' : DataBuffer}
      (h : b.pop = (some p, b')) (t : Pops b' fs b'') : Pops b (p.fragment :: fs) b''

/-- A handler that does not throw: the loop pops some fragments and reads them. -/
theorem drain_spec (fuel : ℕ) (d : Drain) (hd : d.thrown = false) :
    ∃ fs, (drain (fun _ => false) fuel d).popped = d.popped ++ fs ∧
      Pops d.buffer fs (drain (fun _ => false) fuel d).buffer ∧
      ((drain (fun _ => false) fuel d).reassembly, (drain (fun _ => false) fuel d).handled) =
        fs.foldl (Reassembly.step ACTION_MORE) (d.reassembly, d.handled) ∧
      (drain (fun _ => false) fuel d).thrown = false := by
  induction fuel generalizing d with
  | zero => exact ⟨[], by simp [drain], .nil _, rfl, hd⟩
  | succ fuel ih =>
    rcases hp : d.buffer.pop with ⟨data?, buffer⟩
    cases data? with
    | none =>
      have hdr : drain (fun _ => false) (fuel + 1) d = d := by simp [drain, hd, hp]
      rw [hdr]
      exact ⟨[], by simp, .nil _, rfl, hd⟩
    | some data =>
      by_cases hm : data.action = ACTION_MORE
      · have hdr : drain (fun _ => false) (fuel + 1) d =
            drain (fun _ => false) fuel
              ⟨buffer, d.reassembly ++ data.buf, d.handled, d.popped ++ [data.fragment], false⟩ := by
          simp [drain, hd, hp, hm]
        obtain ⟨fs, h1, h2, h3, h4⟩ := ih
          ⟨buffer, d.reassembly ++ data.buf, d.handled, d.popped ++ [data.fragment], false⟩ rfl
        rw [hdr]
        refine ⟨data.fragment :: fs, by simp [h1], .cons hp h2, ?_, h4⟩
        rw [h3, List.foldl_cons]
        simp [Reassembly.step, Payload.fragment, hm]
      · have hdr : drain (fun _ => false) (fuel + 1) d =
            drain (fun _ => false) fuel
              ⟨buffer, [], d.handled ++ [(data.action, d.reassembly ++ data.buf)],
                d.popped ++ [data.fragment], false⟩ := by
          simp [drain, hd, hp, hm]
        obtain ⟨fs, h1, h2, h3, h4⟩ := ih
          ⟨buffer, [], d.handled ++ [(data.action, d.reassembly ++ data.buf)],
            d.popped ++ [data.fragment], false⟩ rfl
        rw [hdr]
        refine ⟨data.fragment :: fs, by simp [h1], .cons hp h2, ?_, h4⟩
        rw [h3, List.foldl_cons]
        simp [Reassembly.step, Payload.fragment, hm]

theorem readyRead_drain (fuel : ℕ) (d : Drain) (hd : d.thrown = false)
    (hfuel : d.buffer.data.size ≤ fuel) :
    (drain (fun _ => false) fuel d).buffer.readyRead = false := by
  induction fuel generalizing d with
  | zero =>
    by_contra hr
    have hpos := (DataBuffer.size_pos_of_readyRead (by simpa using hr)).2
    simp only [drain] at hpos
    omega
  | succ fuel ih =>
    rcases hp : d.buffer.pop with ⟨data?, buffer⟩
    cases data? with
    | none =>
      have hdr : drain (fun _ => false) (fuel + 1) d = d := by simp [drain, hd, hp]
      rw [hdr]
      by_contra hr
      obtain ⟨p, -, hpop⟩ := DataBuffer.pop_of_readyRead (by simpa using hr)
      rw [hpop] at hp
      cases hp
    | some data =>
      have hsize := DataBuffer.size_of_pop hp
      by_cases hm : data.action = ACTION_MORE
      · have hdr : drain (fun _ => false) (fuel + 1) d =
            drain (fun _ => false) fuel
              ⟨buffer, d.reassembly ++ data.buf, d.handled, d.popped ++ [data.fragment], false⟩ := by
          simp [drain, hd, hp, hm]
        rw [hdr]
        exact ih _ rfl (by simp only; omega)
      · have hdr : drain (fun _ => false) (fuel + 1) d =
            drain (fun _ => false) fuel
              ⟨buffer, [], d.handled ++ [(data.action, d.reassembly ++ data.buf)],
                d.popped ++ [data.fragment], false⟩ := by
          simp [drain, hd, hp, hm]
        rw [hdr]
        exact ih _ rfl (by simp only; omega)

theorem drainAfter_spec (n : Node) (now : ℤ) (peer seq action : ℕ) (data : Bytes) :
    Pops ((n.endpoint peer).receive.insert now seq action data)
        (n.drainAfter now (fun _ => false) peer seq action data).popped
        (n.drainAfter now (fun _ => false) peer seq action data).buffer ∧
      ((n.drainAfter now (fun _ => false) peer seq action data).reassembly,
          (n.drainAfter now (fun _ => false) peer seq action data).handled) =
        (n.drainAfter now (fun _ => false) peer seq action data).popped.foldl
          (Reassembly.step ACTION_MORE) ((n.endpoint peer).reassembly, []) ∧
      (n.drainAfter now (fun _ => false) peer seq action data).buffer.readyRead = false := by
  obtain ⟨fs, h1, h2, h3, -⟩ := drain_spec
    (((n.receiveBufferOf peer).insert now seq action data).data.size)
    ⟨(n.receiveBufferOf peer).insert now seq action data, n.reassemblyBufferOf peer, [], [], false⟩ rfl
  have hfs : (n.drainAfter now (fun _ => false) peer seq action data).popped = fs := h1
  rw [hfs]
  exact ⟨h2, h3, readyRead_drain _ _ rfl le_rfl⟩

theorem endpoint_onReliable (n : Node) (now : ℤ) (throws : ℕ → Bool) (peer seq action : ℕ)
    (data : Bytes) :
    (n.onReliable now throws peer seq action data).1.endpoint peer =
      { n.endpoint peer with
        receive := (n.drainAfter now throws peer seq action data).buffer
        reassembly := (n.drainAfter now throws peer seq action data).reassembly } := by
  simp only [onReliable]
  split
  · simp
  · split <;> simp

theorem routes_onReliable (n : Node) (now : ℤ) (throws : ℕ → Bool) (peer seq action : ℕ)
    (data : Bytes) : (n.onReliable now throws peer seq action data).1.routes = n.routes := by
  simp only [onReliable]
  split
  · simp
  · split <;> simp

/-- The datagrams written after a reliable one: its acknowledgement and resend requests. -/
theorem writes_onReliable {n : Node} {now : ℤ} {throws : ℕ → Bool} {peer seq action : ℕ}
    {data : Bytes} {dest : HostAndPort} {buf : Bytes}
    (h : .writeDatagram dest buf ∈ (n.onReliable now throws peer seq action data).2) :
    buf = encodeMessage ACTION_TCP_ACK seq [] ∨ ∃ s, buf = encodeMessage ACTION_TCP_RESEND s [] := by
  have key : ∀ o ∈ (n.onReliable now throws peer seq action data).2, o = .writeDatagram dest buf →
      buf = encodeMessage ACTION_TCP_ACK seq [] ∨ ∃ s, buf = encodeMessage ACTION_TCP_RESEND s [] := by
    intro o ho he
    have hack : ∀ m : Node, ∀ k : ℤ, o ∈ m.sendMessage peer ACTION_TCP_ACK seq [] k →
        buf = encodeMessage ACTION_TCP_ACK seq [] := by
      intro m k hm
      obtain ⟨addr, -, hw⟩ := mem_sendMessage hm
      rw [he] at hw
      exact (Output.writeDatagram.inj hw).2
    have hreq : ∀ m : Node, ∀ k : ℤ, ∀ s, o ∈ m.sendMessage peer ACTION_TCP_RESEND s [] k →
        buf = encodeMessage ACTION_TCP_RESEND s [] := by
      intro m k s hm
      obtain ⟨addr, -, hw⟩ := mem_sendMessage hm
      rw [he] at hw
      exact (Output.writeDatagram.inj hw).2
    have hhan : ∀ ms : List (ℕ × Bytes), o ∉ ms.map fun m => Output.handleMessage m.1 peer m.2 := by
      intro ms hm
      obtain ⟨m, -, hw⟩ := List.mem_map.mp hm
      rw [he] at hw
      cases hw
    simp only [onReliable] at ho
    split at ho
    · rcases List.mem_append.mp ho with ho | ho
      · exact Or.inl (hack _ _ ho)
      · exact absurd ho (hhan _)
    · split at ho
      · rcases List.mem_append.mp ho with ho | ho
        · rcases List.mem_append.mp ho with ho | ho
          · exact Or.inl (hack _ _ ho)
          · exact absurd ho (hhan _)
        · obtain ⟨s, -, hs⟩ := List.mem_flatMap.mp ho
          exact Or.inr ⟨s, hreq _ _ s hs⟩
      · rcases List.mem_append.mp ho with ho | ho
        · exact Or.inl (hack _ _ ho)
        · exact absurd ho (hhan _)
  exact key _ h rfl

theorem drainAfter_touch (n : Node) (now : ℤ) (throws : ℕ → Bool) (peer seq action : ℕ)
    (data : Bytes) : (n.touch peer).drainAfter now throws peer seq action data =
      n.drainAfter now throws peer seq action data := by
  have h := endpoint_touch n peer
  simp only [endpoint, Endpoint.mk.injEq] at h
  simp only [drainAfter, h.2.1, h.2.2]

/-- What a message from a peer does. -/
def onMessage (n : Node) (now : ℤ) (throws : ℕ → Bool) (peer : ℕ) (datas : Bytes) : Message → Option (Node × List Output)
  | .tcpAck seq => some (n.onTcpAck peer seq, [])
  | .tcpResend seq => some (n.onTcpResend peer seq)
  | .packsizeTest seq => (n.onPacksizeTest peer seq datas).map fun out => (n, out)
  | .packsizeAck seq => some (n.onPacksizeAck now peer seq, [])
  | .reliable seq action data => some (n.onReliable now throws peer seq action data)
  | .other action data => some (n.onOther peer action data datas)

/-- A datagram is left alone, or a message from a known peer is handled. -/
theorem onDatagram_read {n n' : Node} {now : ℤ} {throws : ℕ → Bool} {sender : HostAndPort} {datas : Bytes}
    {out : List Output} (h : n.onDatagram now throws sender datas = some (n', out)) :
    (n' = n ∧ out = [] ∧ (datas = [] ∨ n.peerPlayerIds[sender]? = none)) ∨
      ∃ peer m, datas ≠ [] ∧ n.peerPlayerIds[sender]? = some peer ∧ Message.decode datas = some m ∧
        (n.touch peer).onMessage now throws peer datas m = some (n', out) := by
  rw [onDatagram] at h
  by_cases hnil : datas = []
  · rw [if_pos hnil] at h
    cases h
    exact Or.inl ⟨rfl, rfl, Or.inl hnil⟩
  · rw [if_neg hnil] at h
    cases hpeer : n.peerPlayerIds[sender]? with
    | none =>
      rw [hpeer] at h
      cases h
      exact Or.inl ⟨rfl, rfl, Or.inr rfl⟩
    | some peer =>
      rw [hpeer] at h
      dsimp only at h
      cases hm : Message.decode datas with
      | none =>
        rw [hm] at h
        cases h
      | some m =>
        rw [hm] at h
        refine Or.inr ⟨peer, m, hnil, rfl, rfl, ?_⟩
        cases m with
        | _ => exact h

theorem onDatagram_unknown {n n' : Node} {now : ℤ} {throws : ℕ → Bool} {sender : HostAndPort} {datas : Bytes}
    {out : List Output} (hpeer : n.peerPlayerIds[sender]? = none)
    (h : n.onDatagram now throws sender datas = some (n', out)) : n' = n ∧ out = [] := by
  obtain ⟨hsame, hout, -⟩ | ⟨peer, m, -, hknown, -⟩ := onDatagram_read h
  · exact ⟨hsame, hout⟩
  · rw [hpeer] at hknown
    cases hknown

/-- Everything a datagram from a known peer can do to its connection. -/
theorem onDatagram_cases {n n' : Node} {now : ℤ} {throws : ℕ → Bool} {sender : HostAndPort}
    {datas : Bytes} {out : List Output} {peer : ℕ} (hp : n.routes.2[sender]? = some peer)
    (h : n.onDatagram now throws sender datas = some (n', out)) :
    n'.routes = n.routes ∧
    ((∃ seq, Message.decode datas = some (.tcpAck seq) ∧ out = [] ∧
        n'.endpoint peer = { n.endpoint peer with send := ((n.endpoint peer).send.ackData seq).2 }) ∨
      (∃ seq action data, Message.decode datas = some (.reliable seq action data) ∧
        n'.endpoint peer = { n.endpoint peer with
          receive := (n.drainAfter now throws peer seq action data).buffer
          reassembly := (n.drainAfter now throws peer seq action data).reassembly } ∧
        out = ((n.touch peer).onReliable now throws peer seq action data).2) ∨
      ((∀ seq, Message.decode datas ≠ some (.tcpAck seq)) ∧
        (∀ seq action data, Message.decode datas ≠ some (.reliable seq action data)) ∧
        n'.endpoint peer = n.endpoint peer ∧
        ∀ o ∈ out, (∃ addr seq p, (n.endpoint peer).send.get seq = some p ∧
            o = .writeDatagram addr (encodeMessage p.action seq p.buf) ∧ n.routes.1[peer]? = some addr) ∨
          (∃ addr size, o = .writeDatagram addr (encodeMessage ACTION_PACKSIZE_ACK size []) ∧
            n.routes.1[peer]? = some addr) ∨
          ∃ action data, action < ACTION_TCP_DATA ∧ o = .handleMessage action peer data)) := by
  obtain ⟨rfl, rfl, hquiet⟩ | ⟨sent, m, -, hsent, hm, h⟩ := onDatagram_read h
  · have hnil : datas = [] := hquiet.resolve_right fun hnone => by
      rw [show n'.peerPlayerIds[sender]? = some peer from hp] at hnone
      cases hnone
    subst hnil
    exact ⟨rfl, Or.inr (Or.inr ⟨by simp [Message.decode], by simp [Message.decode], rfl, by simp⟩)⟩
  obtain rfl : peer = sent := Option.some.inj (hp.symm.trans hsent)
  rw [hm]
  cases m with
  | tcpAck seq =>
    cases h
    refine ⟨by simp [routes_onTcpAck], Or.inl ⟨seq, rfl, rfl, ?_⟩⟩
    rw [endpoint_onTcpAck, endpoint_touch]
  | tcpResend seq =>
    have hr := onTcpResend_frame (n.touch peer) peer seq
    rw [endpoint_touch, routes_touch] at hr
    have hout : ((n.touch peer).onTcpResend peer seq) = (n', out) := Option.some.inj h
    rw [hout] at hr
    refine ⟨hr.2, Or.inr (Or.inr ⟨by simp, by simp, hr.1, ?_⟩)⟩
    intro o ho
    have ho' : o ∈ ((n.touch peer).onTcpResend peer seq).2 := by
      rw [hout]
      exact ho
    obtain ⟨addr, p, hget, ha, he⟩ := mem_onTcpResend ho'
    rw [endpoint_touch] at hget
    exact Or.inl ⟨addr, seq, p, hget, he, ha⟩
  | packsizeTest seq =>
    obtain ⟨out', hout', he⟩ := Option.map_eq_some_iff.mp h
    cases he
    refine ⟨routes_touch n peer, Or.inr (Or.inr ⟨by simp, by simp, endpoint_touch n peer, ?_⟩)⟩
    intro o ho
    obtain ⟨addr, ha, he⟩ := mem_onPacksizeTest hout' ho
    exact Or.inr (Or.inl ⟨addr, seq, he, ha⟩)
  | packsizeAck seq =>
    cases h
    refine ⟨rfl, Or.inr (Or.inr ⟨by simp, by simp, ?_, by simp⟩)⟩
    simp [onPacksizeAck]
  | reliable seq action data =>
    have hout : (n.touch peer).onReliable now throws peer seq action data = (n', out) :=
      Option.some.inj h
    have hr := routes_onReliable (n.touch peer) now throws peer seq action data
    have he := endpoint_onReliable (n.touch peer) now throws peer seq action data
    rw [hout, routes_touch] at hr
    rw [hout, endpoint_touch, drainAfter_touch] at he
    exact ⟨hr, Or.inr (Or.inl ⟨seq, action, data, rfl, he, by rw [hout]⟩)⟩
  | other action data =>
    have hlt := decode_other_lt hm
    have hout : (n.touch peer).onOther peer action data datas = (n', out) := Option.some.inj h
    unfold onOther at hout
    cases hout
    refine ⟨rfl, Or.inr (Or.inr ⟨by simp, by simp, endpoint_touch n peer, ?_⟩)⟩
    intro o ho
    split at ho
    · simp at ho
    · have hoe := List.mem_singleton.mp ho
      exact Or.inr (Or.inr ⟨action, data, hlt, hoe⟩)

end Node

end Gpgnet4TA.Tafnet
