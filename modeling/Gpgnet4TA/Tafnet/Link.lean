import Gpgnet4TA.Lib.Run
import Gpgnet4TA.Tafnet.NodeSpec

/-!
# Two nodes and the network between them

The state of the system is the two nodes and every datagram that was ever
written. A delivery may pick any of these again, so loss, duplication, delay and
reordering need no events of their own. Next to the nodes stand logs that the
program does not keep: how often each side has called `connectToPeer`, and what
happened since the last such call.
-/

namespace Gpgnet4TA.Tafnet
open Gpgnet4TA.Lib

inductive Side where
  | A
  | B
  deriving DecidableEq

def Side.other : Side → Side
  | .A => .B
  | .B => .A

@[simp] theorem Side.other_other (s : Side) : s.other.other = s := by cases s <;> rfl

theorem Side.other_ne (s : Side) : s.other ≠ s := by cases s <;> decide

/-- The two ends: player ids, addresses and the arguments of the nodes' constructors. -/
structure Ends where
  id : Side → ℕ
  addr : Side → HostAndPort
  isHost : Side → Bool
  proactiveResend : Side → Bool
  maxPacketSize : Side → ℕ

/-- A datagram on the network: the session of its sender in which it was written,
and the session of the datagram that it answers (0 if it answers none). -/
structure Datagram where
  src : Side
  session : ℕ
  reply : ℕ
  dest : HostAndPort
  buf : Bytes
  deriving DecidableEq

structure Link where
  node : Side → Node
  wire : List Datagram
  session : Side → ℕ  -- number of calls of `connectToPeer`
  given : Side → List (ℕ × Bytes)  -- reliable messages given to `forwardGameData`
  pushed : Side → List Fragment  -- fragments pushed to the send buffer
  handled : Side → List (ℕ × Bytes)  -- reliable messages passed to `handleMessage`
  popped : Side → List Fragment  -- fragments popped from the receive buffer
  heard : Side → Option ℕ  -- session of the last reliable datagram that was read

inductive Event where
  | connectToPeer (s : Side) (now : ℤ)
  | forwardGameData (s : Side) (now : ℤ) (action : ℕ) (data : Bytes)
  | onResendTimer (s : Side) (now : ℤ)
  | onResendReqReenableTimer (s : Side)
  | sendPacksizeTests (s : Side) (now : ℤ)
  | setMaxPacketSize (s : Side) (size : ℕ)
  | deliver (dst : Side) (i : ℕ) (now : ℤ)

/-- The actions that callers of `forwardGameData` use for reliable messages. -/
def messageActions : List ℕ := [ACTION_TCP_DATA, ACTION_ENUM, ACTION_UDP_PROTECTED, ACTION_HELLO]

/-- The datagrams among the outputs of side `s`. -/
def written (s : Side) (session reply : ℕ) (out : List Output) : List Datagram :=
  out.filterMap fun
    | .writeDatagram dest buf => some ⟨s, session, reply, dest, buf⟩
    | .handleMessage _ _ _ => none

/-- The reliable messages among the outputs. -/
def handledIn (out : List Output) : List (ℕ × Bytes) :=
  out.filterMap fun
    | .writeDatagram _ _ => none
    | .handleMessage action _ data => if ACTION_TCP_DATA ≤ action then some (action, data) else none

/-- The fragments that a datagram makes the node pop. -/
def Node.poppedBy (n : Node) (now : ℤ) (sender : HostAndPort) (datas : Bytes) : List Fragment :=
  match n.peerPlayerIds[sender]?, Message.decode datas with
  | some peer, some (.reliable seq action data) =>
    (n.drainAfter now (fun _ => false) peer seq action data).popped
  | _, _ => []

/-- The datagram is reliable data from a peer that the node knows. -/
def Node.reads (n : Node) (sender : HostAndPort) (datas : Bytes) : Bool :=
  match n.peerPlayerIds[sender]?, Message.decode datas with
  | some _, some (.reliable _ _ _) => true
  | _, _ => false

namespace Link

def init (e : Ends) : Link where
  node s := Node.new (e.id s) (e.isHost s) (e.proactiveResend s) (e.maxPacketSize s)
  wire := []
  session _ := 0
  given _ := []
  pushed _ := []
  handled _ := []
  popped _ := []
  heard _ := none

/-- Side `s` moves to node `n` and writes `out`. -/
def update (l : Link) (s : Side) (n : Node) (reply : ℕ) (out : List Output) : Link :=
  { l with
    node := Function.update l.node s n
    wire := l.wire ++ written s (l.session s) reply out }

def connect (e : Ends) (l : Link) (s : Side) (now : ℤ) : Link :=
  let peer := e.id s.other
  let n := (l.node s).resetPeer (e.addr s.other) peer
  let r := (l.node s).connectToPeer now (e.addr s.other) peer
  let l := { l with session := Function.update l.session s (l.session s + 1) }
  { l.update s r.1 0 r.2 with
    given := Function.update l.given s [(ACTION_HELLO, Node.helloData)]
    pushed := Function.update l.pushed s (n.fragmentsFor peer ACTION_HELLO Node.helloData)
    handled := Function.update l.handled s []
    popped := Function.update l.popped s []
    heard := Function.update l.heard s none }

def forward (e : Ends) (l : Link) (s : Side) (now : ℤ) (action : ℕ) (data : Bytes) : Link :=
  let peer := e.id s.other
  let r := (l.node s).forwardGameData now peer action data
  if ACTION_TCP_DATA ≤ action then
    { l.update s r.1 0 r.2 with
      given := Function.update l.given s (l.given s ++ [(action, data)])
      pushed := Function.update l.pushed s
        (l.pushed s ++ (l.node s).fragmentsFor peer action data) }
  else l.update s r.1 0 r.2

/-- Side `dst` reads a datagram; its handler does not throw. -/
def receive (e : Ends) (l : Link) (dst : Side) (d : Datagram) (now : ℤ) : Option Link :=
  let sender := e.addr d.src
  ((l.node dst).onDatagram now (fun _ => false) sender d.buf).map fun r =>
    { l.update dst r.1 d.session r.2 with
      handled := Function.update l.handled dst (l.handled dst ++ handledIn r.2)
      popped := Function.update l.popped dst
        (l.popped dst ++ (l.node dst).poppedBy now sender d.buf)
      heard := Function.update l.heard dst
        (if (l.node dst).reads sender d.buf then some d.session else l.heard dst) }

/-- One event. Messages are given to a node only after it has called `connectToPeer`. -/
def step (e : Ends) (l : Link) : Event → Option Link
  | .connectToPeer s now => some (l.connect e s now)
  | .forwardGameData s now action data =>
    if 0 < l.session s ∧ (action < ACTION_TCP_DATA ∨ action ∈ messageActions ∧ 0 < data.length) then
      some (l.forward e s now action data)
    else none
  | .onResendTimer s now =>
    let r := (l.node s).onResendTimer now
    some (l.update s r.1 0 r.2)
  | .onResendReqReenableTimer s => some (l.update s (l.node s).onResendReqReenableTimer 0 [])
  | .sendPacksizeTests s now =>
    let r := (l.node s).sendPacksizeTests now (e.id s.other)
    some (l.update s r.1 0 r.2)
  | .setMaxPacketSize s size =>
    let n := l.node s
    if MAX_PACKET_SIZE_LOWER_LIMIT ≤ size ∧ size ≤ n.maxPacketSize then
      some (l.update s (n.setResendRate (e.id s.other)
        { n.resendRateOf (e.id s.other) with maxPacketSize := size }) 0 [])
    else none
  | .deliver dst i now =>
    match l.wire[i]? with
    | none => none
    | some d => if d.src = dst.other ∧ d.dest = e.addr dst then l.receive e dst d now else none

end Link

end Gpgnet4TA.Tafnet
