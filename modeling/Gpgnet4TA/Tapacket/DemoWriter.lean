import Gpgnet4TA.Tapacket.DemoParser
import Gpgnet4TA.Tapacket.WireCodec

/-!
# Writing demo files (`TADemoWriter.cpp`)

The writer appends one record after the other to its stream, each with its length before
it. The reader takes the records back one by one; `serialise` of a record is what `load`
is given.
-/

namespace Gpgnet4TA.Tapacket
open Gpgnet4TA.Lib Gpgnet4TA.Lib.Resumable

/-! ### The records -/

def Header.serialise (h : Header) : Bytes :=
  h.magic ++ leBytes 2 h.version ++ leBytes 1 h.numPlayers ++ leBytes 2 h.maxUnits ++ h.mapName.take 64

def ExtraHeader.serialise (eh : ExtraHeader) : Bytes := leBytes 4 eh.numSectors

def ExtraSector.serialise (es : ExtraSector) : Bytes := leBytes 4 es.sectorType ++ es.data

def Player.serialise (p : Player) : Bytes :=
  [p.color, p.side.toInt8.toUInt8, p.number] ++ p.name.take 16

def PlayerStatusMessage.serialise (s : PlayerStatusMessage) : Bytes := s.number :: s.statusMessage

def UnitData.serialise (u : UnitData) : Bytes := u.unitData

def Packet.serialise (p : Packet) : Bytes := leBytes 2 p.time ++ [p.sender] ++ p.data

namespace TADemoWriter

/-- A record with its length before it. -/
def frame (s : Bytes) : Bytes := leBytes 2 (2 + s.length) ++ s

def Fits (s : Bytes) : Prop := 2 + s.length < 2 ^ 16

instance (s : Bytes) : Decidable (Fits s) := inferInstanceAs (Decidable (_ < _))

def writeRecord (output s : Bytes) : Except Failure Bytes :=
  if Fits s then .ok (output ++ frame s) else .error (.runtimeError "Oversize record!")

/-- Several records; the first that is too long ends the writing. -/
def writeRecords (output : Bytes) (records : List Bytes) : Except Failure Bytes :=
  records.foldlM writeRecord output

theorem writeRecords_ok (output : Bytes) {records : List Bytes} (h : ∀ s ∈ records, Fits s) :
    writeRecords output records = .ok (output ++ records.flatMap frame) := by
  induction records generalizing output with
  | nil => simp [writeRecords, pure, Except.pure]
  | cons s records ih =>
    have hs : writeRecord output s = .ok (output ++ frame s) := if_pos (h s List.mem_cons_self)
    have hrest := ih (output ++ frame s) fun t ht => h t (List.mem_cons_of_mem _ ht)
    rw [writeRecords, List.foldlM_cons, hs, List.flatMap_cons, ← List.append_assoc]
    exact hrest

theorem writeRecords_error (output : Bytes) {records : List Bytes} (h : ¬ ∀ s ∈ records, Fits s) :
    writeRecords output records = .error (.runtimeError "Oversize record!") := by
  induction records generalizing output with
  | nil => exact absurd (fun s hs => absurd hs List.not_mem_nil) h
  | cons s records ih =>
    rw [writeRecords, List.foldlM_cons]
    by_cases hs : Fits s
    · have hw : writeRecord output s = .ok (output ++ frame s) := if_pos hs
      rw [hw]
      apply ih
      intro hall
      apply h
      intro t ht
      rcases List.mem_cons.mp ht with rfl | ht
      · exact hs
      · exact hall t ht
    · have hw : writeRecord output s = .error (.runtimeError "Oversize record!") := if_neg hs
      rw [hw]
      rfl

end TADemoWriter

end Gpgnet4TA.Tapacket
