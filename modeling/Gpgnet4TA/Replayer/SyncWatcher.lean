import Gpgnet4TA.Lib.Table
import Gpgnet4TA.Tapacket.SubPacketClasses

/-!
# Unit synchronisation of the replayer (`TaReplayer.cpp:570-723`)

Before a replay starts every player who has joined is told about all units of the demo, and then
again with acknowledgements, in batches of a hundred for each call. `int`s are integers; `none` says
that an increment overflows, that there is no unit with the index, or that a status packet is too
short.
-/

namespace Gpgnet4TA.Replayer
open Gpgnet4TA.Lib Gpgnet4TA.Tapacket

inductive DpPlayerState where
  | START_SYNC
  | SEND_UNITS
  | WAIT_RECEIVE_UNITS
  | CHECK_ERRORS
  | SEND_ACKS
  | WAIT_ACKS
  | END_SYNC
  | WAIT_GO
  | LOADING
  | PLAYING
  deriving DecidableEq

inductive WarnedWatcherState where
  | INITIAL
  | HAVE_WARNED
  | PROCEED_REGARDLESS
  deriving DecidableEq

structure DpPlayer where
  ordinalId : ℤ
  dpid : ℕ
  ticks : ℕ
  statusPacket : Bytes
  state : DpPlayerState
  unitSyncSendCount : ℤ
  unitSyncNextUnit : ℤ
  unitSyncErrorCount : ℤ
  unitSyncAckCount : ℤ
  unitSyncReceiveCount : ℤ
  hasTaken : Bool
  warnedWatcherState : WarnedWatcherState

structure UnitInfo where
  id : ℕ
  crc : ℕ
  limit : ℕ
  inUse : Bool

def UNITS_SYNC_PER_TICK : ℕ := 100

/-- What is sent. A request for units is a `TUnitData()`, of which only the first bytes are set. -/
inductive Message where
  | hostMigration (playerNumber : ℤ)
  | requestUnits
  | unitData (x : TUnitData)
  | say (text : String)

structure Sent where
  fromId : ℕ
  toId : ℕ
  message : Message

/-- `++` on an `int`. -/
def increment (n : ℤ) : Option ℤ := if n < 2 ^ 31 - 1 then some (n + 1) else none

/-- The id of the demo's host, and its units. -/
structure Demo where
  hostDpId : ℕ
  demoUnitInfo : Table UnitInfo

namespace Demo

/-- Pointers to all units, in the order of their ids. -/
def demoUnitInfoLinear (r : Demo) : List UnitInfo := r.demoUnitInfo.toList.map (·.2)

/-- `m_demoUnitInfoLinear[i]` -/
def unitAt (r : Demo) (i : ℤ) : Option UnitInfo := if 0 ≤ i then r.demoUnitInfoLinear[i.toNat]? else none

def say (r : Demo) (text : String) : Sent := ⟨r.hostDpId, 0, .say text⟩

/-- One round of the loops in `SEND_UNITS` and `SEND_ACKS`, and whether it was that of the last
unit. -/
def sendUnit (r : Demo) (waiting : DpPlayerState) (text : String) (p : DpPlayer) :
    Option (Bool × DpPlayer × List Sent) := do
  let unitInfo ← r.unitAt p.unitSyncNextUnit
  let unitSyncNextUnit ← increment p.unitSyncNextUnit
  let unitSyncSendCount ← increment p.unitSyncSendCount
  let sent : Sent := ⟨r.hostDpId, p.dpid, .unitData (.new unitInfo.id unitInfo.limit true)⟩
  if unitSyncNextUnit = r.demoUnitInfoLinear.length then
    return (true, { p with unitSyncNextUnit := 0, unitSyncSendCount, state := waiting },
      [sent, r.say (text ++ toString unitSyncSendCount)])
  else return (false, { p with unitSyncNextUnit, unitSyncSendCount }, [sent])

/-- The loop with `n` rounds to go; `breaks` tells whether it is left after the last unit. -/
def sendBatch (r : Demo) (breaks : Bool) (waiting : DpPlayerState) (text : String) :
    ℕ → DpPlayer → Option (DpPlayer × List Sent)
  | 0, p => some (p, [])
  | n + 1, p => do
    let (last, p, sent) ← r.sendUnit waiting text p
    if last ∧ breaks then return (p, sent)
    else
      let (p, more) ← r.sendBatch breaks waiting text n p
      return (p, sent ++ more)

def ackStatus (r : Demo) (p : DpPlayer) : Sent :=
  r.say ("*** Current ack status: " ++ toString p.unitSyncReceiveCount ++ " of " ++ toString p.unitSyncSendCount)

def checkErrors (r : Demo) (p : DpPlayer) : List Sent :=
  let missing : ℤ := r.demoUnitInfo.size - p.unitSyncAckCount
  (if p.unitSyncErrorCount ≠ 0 then
    [r.say ("*** You have CRC errors on " ++ toString p.unitSyncErrorCount ++ " units!")] else []) ++
  if p.unitSyncAckCount < r.demoUnitInfo.size then
    [r.say ("*** You are missing " ++ toString missing ++ " of " ++ toString r.demoUnitInfo.size ++ " units!")]
  else []

def waitGo (r : Demo) (p : DpPlayer) : Option (ℕ × DpPlayer × List Sent) := do
  -- `data3` is not looked at
  let playerInfo ← TPlayerInfo.ofSubPacket p.statusPacket 0
  if playerInfo.isClickedIn ∧ (!playerInfo.isWatcher ∨ p.warnedWatcherState = .PROCEED_REGARDLESS) then
    return (1, p, [])
  else if playerInfo.isClickedIn ∧ p.warnedWatcherState = .INITIAL then
    return (0, { p with warnedWatcherState := .HAVE_WARNED },
      [r.say "Please join as a regular player, not as a watcher",
        r.say "(or green-off / green-on again to proceed as watcher)"])
  else if !playerInfo.isClickedIn ∧ p.warnedWatcherState = .HAVE_WARNED then
    return (0, { p with warnedWatcherState := .PROCEED_REGARDLESS }, [])
  else return (0, p, [])

/-- A negative timer counts as a large one where it is compared with an `unsigned`. -/
def expired (timer limit : ℤ) : Bool := timer < 0 ∨ limit < timer

/-- What is returned, the player afterwards, and what is sent. -/
def doSyncWatcher (r : Demo) (p : DpPlayer) : Option (ℕ × DpPlayer × List Sent) :=
  match p.state with
  | .START_SYNC => do
    let unitSyncSendCount ← increment p.unitSyncReceiveCount
    return (0, { p with unitSyncNextUnit := 0, unitSyncSendCount, state := .SEND_UNITS },
      [⟨r.hostDpId, p.dpid, .hostMigration p.ordinalId⟩, ⟨r.hostDpId, p.dpid, .requestUnits⟩])
  | .SEND_UNITS =>
    (r.sendBatch true .WAIT_RECEIVE_UNITS "*** Sent all units - " UNITS_SYNC_PER_TICK p).map (0, ·)
  | .WAIT_RECEIVE_UNITS => do
    let unitSyncNextUnit ← increment p.unitSyncNextUnit
    let received ← increment p.unitSyncReceiveCount
    let p := { p with unitSyncNextUnit }
    if p.unitSyncSendCount ≤ received then
      return (0, { p with unitSyncSendCount := p.unitSyncReceiveCount, state := .CHECK_ERRORS }, [])
    else if expired unitSyncNextUnit 10 then
      return (0, { p with state := .START_SYNC }, [r.ackStatus p, r.say "*** Attempting resync"])
    else return (0, p, [])
  | .CHECK_ERRORS => some (0, { p with state := .SEND_ACKS, unitSyncNextUnit := 0 }, r.checkErrors p)
  | .SEND_ACKS =>
    (r.sendBatch false .WAIT_ACKS "*** Sent ack on all units - " UNITS_SYNC_PER_TICK p).map (0, ·)
  | .WAIT_ACKS => do
    let unitSyncNextUnit ← increment p.unitSyncNextUnit
    let p := { p with unitSyncNextUnit }
    if p.unitSyncReceiveCount = p.unitSyncSendCount then return (0, { p with state := .END_SYNC }, [])
    else if expired unitSyncNextUnit 30 then
      -- the index stays where the timer is
      return (0, { p with state := .SEND_ACKS, unitSyncSendCount := int32 (r.demoUnitInfo.size + 1) },
        [r.ackStatus p, r.say "*** Attempting resync 2"])
    else return (0, p, [])
  | .END_SYNC => some (0, { p with state := .WAIT_GO }, [r.say "*** Unit sync is complete"])
  | .WAIT_GO => r.waitGo p
  | .LOADING => some (0, p, [])
  | .PLAYING => some (0, p, [])

end Demo

end Gpgnet4TA.Replayer
