import Gpgnet4TA.Taflib.DuplicateDetection
import Gpgnet4TA.Tafnet.DataBuffer

/-!
# A tafnet node (`TafnetNode.cpp`)

The node keeps, for each peer, a send buffer, a receive buffer, a reassembly
buffer, resend statistics and a flag that limits resend requests. Every handler
is a function from the node to the new node and the list of things it did:
datagrams written to the lobby socket and calls of the message handler. The
clock is an argument. A read outside a datagram has no result (`none`).
-/

namespace Gpgnet4TA.Tafnet
open Gpgnet4TA.Lib Gpgnet4TA.Taflib

/-! ### Constants (`TafnetNode.h:14-23`) -/

def MAX_PACKET_SIZE_LOWER_LIMIT : ℕ := 250
def INITIAL_RESEND_TIMEOUT : ℤ := 500
def MAX_RESEND_TIMEOUT : ℤ := 700
def RESEND_TIMEOUT_MARGIN : ℤ := 50
def MAX_RESEND_AT_ONCE : ℕ := 5
def RECENT_PING_BUFFER_SIZE : ℕ := 5

structure HostAndPort where
  ipv4addr : ℕ
  port : ℕ
  deriving DecidableEq

/-- `HostAndPort::operator<`: by port, then by address. -/
instance : Ord HostAndPort := ⟨compareLex (compareOn HostAndPort.port) (compareOn HostAndPort.ipv4addr)⟩

instance : Std.TransOrd HostAndPort :=
  inferInstanceAs (Std.TransCmp (compareLex (compareOn HostAndPort.port) (compareOn HostAndPort.ipv4addr)))

instance : Std.LawfulEqOrd HostAndPort where
  eq_of_compare {a b} h := by
    have h' : compareLex (compareOn HostAndPort.port) (compareOn HostAndPort.ipv4addr) a b = .eq := h
    simp only [compareLex, compareOn, Ordering.then_eq_eq, Nat.compare_eq_eq] at h'
    cases a
    cases b
    simp_all

/-! ### Resend statistics -/

structure ResendRate where
  sendCount : ℕ
  ackCount : ℕ
  maxPacketSize : ℕ
  timestampLastPing : ℤ
  timestampLastPingAck : ℤ
  timestampFirstPing : ℤ
  recentPings : List ℤ
  lastTimeoutSeq : ℕ
  lastResendReqSeq : ℕ
  deriving DecidableEq

namespace ResendRate

def new : ResendRate := ⟨0, 0, MAX_PACKET_SIZE_LOWER_LIMIT, 0, 0, 0, [], 0, 0⟩

/-- `getResendRate`: how often a datagram is repeated, and the updated counters. -/
def getResendRate (r : ResendRate) (incSendCount : Bool) : ℤ × ResendRate :=
  let r := if 32 < r.ackCount then
      { r with sendCount := r.sendCount / 2, ackCount := r.ackCount / 2 } else r
  let rate : ℤ :=
    if r.sendCount ≤ r.ackCount then 1
    else if r.ackCount = 0 then int32 r.sendCount
    else int32 (r.sendCount / r.ackCount : ℕ)
  let r := if 3 < rate ∧ 0 < r.ackCount then
      { r with sendCount := (r.ackCount * 4 + (2 ^ 32 - 1)) % 2 ^ 32 } else r
  let rate := min rate 3
  let r := if incSendCount then
      { r with sendCount := (r.sendCount + (max 1 (rate - 1)).toNat) % 2 ^ 32 } else r
  (rate, r)

def registerAck (r : ResendRate) (now : ℤ) : ResendRate :=
  let r := { r with timestampLastPingAck := now }
  if 0 < r.timestampLastPing ∧ 0 < r.timestampLastPingAck - r.timestampLastPing then
    let pings := r.recentPings ++ [r.timestampLastPingAck - r.timestampLastPing]
    { r with recentPings := pings.drop (pings.length - RECENT_PING_BUFFER_SIZE) }
  else r

/-- The largest recent ping, or -1. -/
def getSuccessfulPingTime (r : ResendRate) : ℤ := r.recentPings.max?.getD (-1)

/-- The timeout that `onResendTimer` derives from the pings. -/
def resendTimeout (r : ResendRate) : ℤ :=
  let expectedPing := int32 r.getSuccessfulPingTime
  min MAX_RESEND_TIMEOUT
    (if 0 < expectedPing then 11 * expectedPing / 10 + RESEND_TIMEOUT_MARGIN
    else INITIAL_RESEND_TIMEOUT)

end ResendRate

/-! ### The node -/

structure Node where
  playerId : ℕ
  hostPlayerId : ℕ
  peerAddresses : Std.ExtTreeMap ℕ HostAndPort
  peerPlayerIds : Std.ExtTreeMap HostAndPort ℕ
  receiveBuffer : Std.ExtTreeMap ℕ DataBuffer
  sendBuffer : Std.ExtTreeMap ℕ DataBuffer
  reassemblyBuffer : Std.ExtTreeMap ℕ Bytes
  resendRates : Std.ExtTreeMap ℕ ResendRate
  maxPacketSize : ℕ
  proactiveResendEnabled : Bool
  udpDuplicateDetection : DuplicateDetection
  resendRequestEnabled : Std.ExtTreeMap ℕ Bool

/-- What a handler does besides changing the node. -/
inductive Output where
  | writeDatagram (dest : HostAndPort) (buf : Bytes)
  | handleMessage (action peerPlayerId : ℕ) (data : Bytes)
  deriving DecidableEq

/-- A received datagram by its action code (`TafnetNode.cpp:380-513`). -/
inductive Message where
  | tcpAck (seq : ℕ)
  | tcpResend (seq : ℕ)
  | packsizeTest (seq : ℕ)
  | packsizeAck (seq : ℕ)
  | reliable (seq action : ℕ) (data : Bytes)
  | other (action : ℕ) (data : Bytes)
  deriving DecidableEq

/-- The header casts of `onReadyRead`. The first byte is the action; all but the
last kind read the sequence number behind it, which need not be there. -/
def Message.decode : Bytes → Option Message
  | [] => none
  | head :: rest =>
    let action := head.toNat
    if action < ACTION_TCP_DATA then some (.other action rest)
    else (u32At (head :: rest) 1).map fun seq =>
      if action = ACTION_TCP_ACK then .tcpAck seq
      else if action = ACTION_TCP_RESEND then .tcpResend seq
      else if action = ACTION_PACKSIZE_TEST then .packsizeTest seq
      else if action = ACTION_PACKSIZE_ACK then .packsizeAck seq
      else .reliable seq action (rest.drop 4)

/-- The datagram that `sendMessage` builds (`TafnetBufferedHeader` or `TafnetMessageHeader`). -/
def encodeMessage (action seq : ℕ) (data : Bytes) : Bytes :=
  if ACTION_TCP_DATA ≤ action then UInt8.ofNat (action % 256) :: (leBytes 4 seq ++ data)
  else UInt8.ofNat (action % 256) :: data

/-! ### Fragmentation (`TafnetNode.cpp:656-680`) -/

/-- The fragment size for a message of `len` bytes: `peerSize` is the size
discovered for the peer, `limit` the node's own limit. `peerSize + 1` is
computed in 32 bits. -/
def fragmentSize (limit peerSize len : ℕ) : ℕ :=
  let numFragments := len / ((peerSize + 1) % 2 ^ 32) + 1
  max (min ((len + numFragments - 1) / numFragments) limit) MAX_PACKET_SIZE_LOWER_LIMIT

/-- The fragment loop: all fragments but the last carry `ACTION_MORE`. -/
def fragmentLoop (action size : ℕ) (data : Bytes) : ℕ → ℕ → List Fragment
  | 0, _ => []
  | fuel + 1, fragOffset =>
    if fragOffset < data.length then
      let sz := min size (data.length - fragOffset)
      let p := (data.drop fragOffset).take sz
      (if data.length ≤ fragOffset + sz then (action, p) else (ACTION_MORE, p)) ::
        fragmentLoop action size data fuel (fragOffset + size)
    else []

def fragments (action size : ℕ) (data : Bytes) : List Fragment :=
  fragmentLoop action size data data.length 0

namespace Node

/-- A node as constructed. -/
def new (playerId : ℕ) (isHost proactiveResend : Bool) (maxPacketSize : ℕ) : Node where
  playerId := playerId
  hostPlayerId := if isHost then playerId else 0
  peerAddresses := ∅
  peerPlayerIds := ∅
  receiveBuffer := ∅
  sendBuffer := ∅
  reassemblyBuffer := ∅
  resendRates := ∅
  maxPacketSize := maxPacketSize
  proactiveResendEnabled := proactiveResend
  udpDuplicateDetection := .new
  resendRequestEnabled := ∅

/-! `operator[]` of the per-peer maps gives a default entry to a peer without one. -/

def receiveBufferOf (n : Node) (peer : ℕ) : DataBuffer := n.receiveBuffer.getD peer .new
def sendBufferOf (n : Node) (peer : ℕ) : DataBuffer := n.sendBuffer.getD peer .new
def reassemblyBufferOf (n : Node) (peer : ℕ) : Bytes := n.reassemblyBuffer.getD peer []
def resendRateOf (n : Node) (peer : ℕ) : ResendRate := n.resendRates.getD peer .new
def resendRequestEnabledOf (n : Node) (peer : ℕ) : Bool := n.resendRequestEnabled.getD peer true

def maxPacketSizeForPlayerId (n : Node) (id : ℕ) : ℕ :=
  match n.resendRates[id]? with
  | none => MAX_PACKET_SIZE_LOWER_LIMIT
  | some r => r.maxPacketSize

def setReceiveBuffer (n : Node) (peer : ℕ) (b : DataBuffer) : Node :=
  { n with receiveBuffer := n.receiveBuffer.insert peer b }
def setSendBuffer (n : Node) (peer : ℕ) (b : DataBuffer) : Node :=
  { n with sendBuffer := n.sendBuffer.insert peer b }
def setReassemblyBuffer (n : Node) (peer : ℕ) (b : Bytes) : Node :=
  { n with reassemblyBuffer := n.reassemblyBuffer.insert peer b }
def setResendRate (n : Node) (peer : ℕ) (r : ResendRate) : Node :=
  { n with resendRates := n.resendRates.insert peer r }
def setResendRequestEnabled (n : Node) (peer : ℕ) (v : Bool) : Node :=
  { n with resendRequestEnabled := n.resendRequestEnabled.insert peer v }

def sendMessage (n : Node) (destPlayerId action seq : ℕ) (data : Bytes) (nRepeats : ℤ) :
    List Output :=
  match n.peerAddresses[destPlayerId]? with
  | none => []
  | some hostAndPort =>
    List.replicate (if n.proactiveResendEnabled then nRepeats.toNat else 1)
      (.writeDatagram hostAndPort (encodeMessage action seq data))

/-- Body of the fragment loop: push the fragment and send it. -/
def sendFragment (n : Node) (now : ℤ) (destPlayerId : ℕ) (f : Fragment) : Node × List Output :=
  let (nRepeats, r) := (n.resendRateOf destPlayerId).getResendRate true
  let (seq, b) := (n.sendBufferOf destPlayerId).pushBack now f.1 f.2
  let n := (n.setResendRate destPlayerId r).setSendBuffer destPlayerId b
  (n, n.sendMessage destPlayerId f.1 seq f.2 nRepeats)

def sendFragments (now : ℤ) (destPlayerId : ℕ) : Node → List Fragment → Node × List Output
  | n, [] => (n, [])
  | n, f :: fs =>
    let (n, out) := n.sendFragment now destPlayerId f
    let (n, rest) := sendFragments now destPlayerId n fs
    (n, out ++ rest)

/-- The fragments that `forwardGameData` cuts a message into. -/
def fragmentsFor (n : Node) (destPlayerId action : ℕ) (data : Bytes) : List Fragment :=
  fragments action
    (fragmentSize n.maxPacketSize (n.resendRateOf destPlayerId).maxPacketSize data.length) data

def forwardGameData (n : Node) (now : ℤ) (destPlayerId action : ℕ) (data : Bytes) :
    Node × List Output :=
  if n.peerAddresses.contains destPlayerId then
    if ACTION_TCP_DATA ≤ action then
      sendFragments now destPlayerId
        ((n.setSendBuffer destPlayerId (n.sendBufferOf destPlayerId)).setResendRate destPlayerId
          (n.resendRateOf destPlayerId))
        (n.fragmentsFor destPlayerId action data)
    else
      let (nRepeats, r) := (n.resendRateOf destPlayerId).getResendRate false
      let n := n.setResendRate destPlayerId r
      (n, n.sendMessage destPlayerId action 0 data nRepeats)
  else (n, [])

/-- The bytes of "HELLO". -/
def helloData : Bytes := [0x48, 0x45, 0x4c, 0x4c, 0x4f]

/-- `connectToPeer` before its greeting: register the address, forget the old session. -/
def resetPeer (n : Node) (hostAndPort : HostAndPort) (peerPlayerId : ℕ) : Node :=
  { n with
    peerAddresses := n.peerAddresses.insert peerPlayerId hostAndPort
    peerPlayerIds := n.peerPlayerIds.insert hostAndPort peerPlayerId
    receiveBuffer := n.receiveBuffer.erase peerPlayerId
    sendBuffer := n.sendBuffer.erase peerPlayerId
    reassemblyBuffer := n.reassemblyBuffer.erase peerPlayerId
    resendRates := n.resendRates.erase peerPlayerId
    resendRequestEnabled := n.resendRequestEnabled.erase peerPlayerId }

def connectToPeer (n : Node) (now : ℤ) (hostAndPort : HostAndPort) (peerPlayerId : ℕ) :
    Node × List Output :=
  (n.resetPeer hostAndPort peerPlayerId).forwardGameData now peerPlayerId ACTION_HELLO helloData

/-! ### Timers -/

/-- The inner loop of `onResendTimer`: at most `maxResendAtOnce` payloads, in
sequence order, up to the first that has not timed out. -/
def resendLoop (n : Node) (peerPlayerId : ℕ) (tNow timeout : ℤ) :
    ℕ → List (ℕ × Payload) → ResendRate → ResendRate × List Output
  | 0, _, stats => (stats, [])
  | _ + 1, [], stats => (stats, [])
  | maxResendAtOnce + 1, (seq, data) :: rest, stats =>
    if tNow < data.timestamp + timeout then (stats, [])
    else
      let (nRepeats, stats) := stats.getResendRate true
      let out := n.sendMessage peerPlayerId data.action seq data.buf nRepeats
      let stats := if stats.lastTimeoutSeq < seq then { stats with lastTimeoutSeq := seq } else stats
      let (stats, outs) := resendLoop n peerPlayerId tNow timeout maxResendAtOnce rest stats
      (stats, out ++ outs)

/-- The outer loop of `onResendTimer`, over the peers that have a send buffer. -/
def resendPeers (tNow : ℤ) : Node → List (ℕ × DataBuffer) → Node × List Output
  | n, [] => (n, [])
  | n, (peerPlayerId, sendBuffer) :: rest =>
    let stats := n.resendRateOf peerPlayerId
    let (stats, out) := n.resendLoop peerPlayerId tNow stats.resendTimeout MAX_RESEND_AT_ONCE
      sendBuffer.data.toList stats
    let (n, outs) := resendPeers tNow (n.setResendRate peerPlayerId stats) rest
    (n, out ++ outs)

def onResendTimer (n : Node) (tNow : ℤ) : Node × List Output :=
  resendPeers tNow n n.sendBuffer.toList

def onResendReqReenableTimer (n : Node) : Node :=
  { n with resendRequestEnabled := n.resendRequestEnabled.map fun _ _ => true }

/-! ### Packet size discovery -/

/-- The data of a packet size test of `sz` bytes: a CRC, then the byte pattern. -/
def packsizeTestData (sz : ℕ) : Bytes :=
  let pattern : Bytes := (List.range sz).map UInt8.ofNat
  leBytes 4 (CRC32.fullCRC (pattern.drop 4)).toNat ++ pattern.drop 4

/-- The sizes that `sendPacksizeTests` tries, from `sz` on. -/
def packsizeLoop (limit : ℕ) : ℕ → ℕ → List ℕ
  | 0, _ => []
  | fuel + 1, sz =>
    sz :: if limit ≤ sz then [] else packsizeLoop limit fuel (min (1412 * sz % 2 ^ 32 / 1000) limit)

def sendPacksizeTests (n : Node) (now : ℤ) (peerPlayerId : ℕ) : Node × List Output :=
  let stats := { n.resendRateOf peerPlayerId with maxPacketSize := MAX_PACKET_SIZE_LOWER_LIMIT }
  let out := (packsizeLoop n.maxPacketSize (n.maxPacketSize + 1) MAX_PACKET_SIZE_LOWER_LIMIT).flatMap
    fun sz => n.sendMessage peerPlayerId ACTION_PACKSIZE_TEST sz (packsizeTestData sz) 3
  (n.setResendRate peerPlayerId { stats with timestampLastPing := now }, out)

/-! ### Reception (`TafnetNode.cpp:326-524`) -/

/-- The references taken at the top of the datagram loop create default entries. -/
def touch (n : Node) (peer : ℕ) : Node :=
  ((n.setReceiveBuffer peer (n.receiveBufferOf peer)).setSendBuffer peer
    (n.sendBufferOf peer)).setResendRequestEnabled peer (n.resendRequestEnabledOf peer)

def onTcpAck (n : Node) (peer seq : ℕ) : Node :=
  match (n.sendBufferOf peer).ackData seq with
  | (erased, b) =>
    let n := n.setSendBuffer peer b
    if erased then
      let r := n.resendRateOf peer
      n.setResendRate peer { r with ackCount := (r.ackCount + 1) % 2 ^ 32 }
    else n

def onTcpResend (n : Node) (peer seq : ℕ) : Node × List Output :=
  match (n.sendBufferOf peer).get seq with
  | none => (n, [])
  | some data =>
    let (nRepeats, stats) := (n.resendRateOf peer).getResendRate true
    let stats := if stats.lastResendReqSeq < seq then { stats with lastResendReqSeq := seq } else stats
    let n := n.setResendRate peer stats
    (n, n.sendMessage peer data.action seq data.buf nRepeats)

/-- `testPacketSize` is compared with the datagram's size; the CRC and the test
data are then read behind the header. -/
def onPacksizeTest (n : Node) (peer testPacketSize : ℕ) (datas : Bytes) : Option (List Output) :=
  if datas.length = testPacketSize + 5 then do
    let testPacketCrc ← u32At datas 5
    let testPacketData ← sliceAt datas 9 (testPacketSize - 4)
    if (CRC32.fullCRC testPacketData).toNat = testPacketCrc ∧ testPacketSize ≤ n.maxPacketSize then
      some (n.sendMessage peer ACTION_PACKSIZE_ACK testPacketSize [] 1)
    else some []
  else some []

def onPacksizeAck (n : Node) (now : ℤ) (peer ackedPacketSize : ℕ) : Node :=
  let stats := (n.resendRateOf peer).registerAck now
  n.setResendRate peer
    (if stats.maxPacketSize < ackedPacketSize then { stats with maxPacketSize := ackedPacketSize }
    else stats)

/-- State of the loop that empties the receive buffer: the calls of
`handleMessage` made so far, the fragments popped so far, and whether the
handler has thrown (which leaves the loop and `onReadyRead`). -/
structure Drain where
  buffer : DataBuffer
  reassembly : Bytes
  handled : List (ℕ × Bytes)
  popped : List Fragment
  thrown : Bool

/-- `while (tcpReceiveBuffer.readyRead())`. The handler throws on its `i`-th call
for this datagram when `throws i`. -/
def drain (throws : ℕ → Bool) : ℕ → Drain → Drain
  | 0, d => d
  | fuel + 1, d =>
    if d.thrown then d
    else match d.buffer.pop with
      | (none, _) => d
      | (some data, buffer) =>
        let reassembly := d.reassembly ++ data.buf
        let popped := d.popped ++ [data.fragment]
        if data.action = ACTION_MORE then
          drain throws fuel ⟨buffer, reassembly, d.handled, popped, false⟩
        else
          let handled := d.handled ++ [(data.action, reassembly)]
          -- an exception skips `reassemblyBuffer.clear()`
          if throws d.handled.length then ⟨buffer, reassembly, handled, popped, true⟩
          else drain throws fuel ⟨buffer, [], handled, popped, false⟩

/-- The drain that follows the insertion of a reliable datagram. -/
def drainAfter (n : Node) (now : ℤ) (throws : ℕ → Bool) (peer seq action : ℕ) (data : Bytes) : Drain :=
  let buffer := (n.receiveBufferOf peer).insert now seq action data
  drain throws buffer.data.size ⟨buffer, n.reassemblyBufferOf peer, [], [], false⟩

/-- The sequence numbers of the resend requests: at most ten, up to the first that is held. -/
def resendRequests (b : DataBuffer) : List ℕ :=
  (List.range (min 10 (b.earliestAvailable - b.nextPopSeq))).map (b.nextPopSeq + ·)

def onReliable (n : Node) (now : ℤ) (throws : ℕ → Bool) (peer seq action : ℕ) (data : Bytes) :
    Node × List Output :=
  let d := n.drainAfter now throws peer seq action data
  let (nRepeats, r) := (n.resendRateOf peer).getResendRate false
  let n := ((n.setReceiveBuffer peer d.buffer).setReassemblyBuffer peer d.reassembly).setResendRate peer r
  let ack := n.sendMessage peer ACTION_TCP_ACK seq [] nRepeats
  let handled := d.handled.map fun m => Output.handleMessage m.1 peer m.2
  -- the loop body sets the flag before it pops
  let enabled := n.resendRequestEnabledOf peer || !d.popped.isEmpty
  if d.thrown then (n.setResendRequestEnabled peer enabled, ack ++ handled)
  else if !d.buffer.empty && enabled then
    (n.setResendRequestEnabled peer false,
      ack ++ handled ++ (resendRequests d.buffer).flatMap fun s =>
        n.sendMessage peer ACTION_TCP_RESEND s [] nRepeats)
  else (n.setResendRequestEnabled peer enabled, ack ++ handled)

def onOther (n : Node) (peer action : ℕ) (data datas : Bytes) : Node × List Output :=
  match n.udpDuplicateDetection.isLikelyDuplicate peer 0 datas with
  | (duplicate, d) =>
    ({ n with udpDuplicateDetection := d },
      if duplicate then [] else [.handleMessage action peer data])

/-- One round of the datagram loop of `onReadyRead`. -/
def onDatagram (n : Node) (now : ℤ) (throws : ℕ → Bool) (sender : HostAndPort) (datas : Bytes) :
    Option (Node × List Output) :=
  if datas = [] then some (n, [])
  else match n.peerPlayerIds[sender]? with
    | none => some (n, [])
    | some peer =>
      let n := n.touch peer
      match Message.decode datas with
      | none => none
      | some (.tcpAck seq) => some (n.onTcpAck peer seq, [])
      | some (.tcpResend seq) => some (n.onTcpResend peer seq)
      | some (.packsizeTest seq) => (n.onPacksizeTest peer seq datas).map fun out => (n, out)
      | some (.packsizeAck seq) => some (n.onPacksizeAck now peer seq, [])
      | some (.reliable seq action data) => some (n.onReliable now throws peer seq action data)
      | some (.other action data) => some (n.onOther peer action data datas)

end Node

end Gpgnet4TA.Tafnet
