import Gpgnet4TA.Tapacket.DemoFollowing
import Gpgnet4TA.Tapacket.DemoWriter

/-!
# Reading what was written

A file of framed records is read record by record, as long as none is empty or longer than
the reader takes for realistic.
-/

namespace Gpgnet4TA.Tapacket
open Gpgnet4TA.Lib Gpgnet4TA.Lib.Resumable

/-! ### Records -/

/-- The lengths that the reader takes. -/
def Readable (record : Bytes) : Prop := 0 < record.length ∧ record.length ≤ 32766

instance (record : Bytes) : Decidable (Readable record) := inferInstanceAs (Decidable (_ ∧ _))

/-- `*(std::uint16_t*)` where two bytes of a number stand. -/
theorem u16At_append (pre post : Bytes) (x : ℕ) (hx : x < 2 ^ 16) :
    u16At (pre ++ leBytes 2 x ++ post) pre.length = some x := by
  have h := sliceAt_append pre (leBytes 2 x) post
  rw [length_leBytes] at h
  have hv : leVal (leBytes 2 x) = x := by
    rw [leVal_leBytes]
    exact Nat.mod_eq_of_lt (by simpa using hx)
  simp only [u16At, h, Option.map_some, hv]

theorem cString_length (bs : Bytes) : (cString bs).length ≤ bs.length := (List.takeWhile_prefix _).length_le

/-- What is read back of a header. -/
def Header.readBack (h : Header) : Header := { h with mapName := cString (h.mapName.take 64) }

section header

variable {h : Header} (hmagic : h.magic = tadMagic) (hversion : h.version = 5) (hplayers : h.numPlayers < 256)
  (hunits : h.maxUnits < 2 ^ 16)
include hmagic hversion hplayers hunits

theorem load_header : Header.load h.serialise =
    if 10 < h.numPlayers then
      .error (.runtimeError ("unrealistic number of players:" ++ text [UInt8.ofNat h.numPlayers]))
    else if 5000 < h.maxUnits then .error (.runtimeError ("unrealistic max units:" ++ toString h.maxUnits))
    else if h.readBack.mapName.any (!isprint ·) then
      .error (.runtimeError ("mapname contains unprintable characters:" ++ text h.readBack.mapName))
    else .ok h.readBack := by
  obtain ⟨name, hname⟩ : ∃ name, h.mapName.take 64 = name := ⟨_, rfl⟩
  have hshort : name.length ≤ 64 := by
    rw [← hname]
    exact List.length_take_le _ _
  have hserialise : h.serialise = tadMagic ++ leBytes 2 5 ++ leBytes 1 h.numPlayers ++ leBytes 2 h.maxUnits ++
      name := by
    rw [Header.serialise, hmagic, hversion, hname]
  have hnumber : leBytes 1 h.numPlayers = [UInt8.ofNat h.numPlayers] := by
    rw [leBytes, Nat.mod_eq_of_lt hplayers]
    rfl
  have hmagicAt : sliceAt (h.serialise ++ [0]) 0 8 = some tadMagic := by
    rw [hserialise]
    simp only [List.append_assoc]
    exact sliceAt_append [] tadMagic _
  have hversionAt : uint16At h.serialise 8 = .ok 5 := by
    rw [uint16At, hserialise]
    simp only [List.append_assoc]
    rw [← List.append_assoc]
    exact congrArg orBadRead (u16At_append tadMagic _ 5 (by omega))
  have hplayersAt : charAt h.serialise 10 = .ok (UInt8.ofNat h.numPlayers) := by
    rw [charAt, hserialise, hnumber]
    rfl
  have hunitsAt : uint16At h.serialise 11 = .ok h.maxUnits := by
    rw [uint16At, hserialise, hnumber]
    rw [List.append_assoc _ name]
    exact congrArg orBadRead (u16At_append (tadMagic ++ leBytes 2 5 ++ [UInt8.ofNat h.numPlayers]) _ _ hunits)
  have hrest : substr h.serialise 13 = .ok name := by
    rw [substr, hserialise, hnumber]
    rfl
  have hval : (UInt8.ofNat h.numPlayers).toNat = h.numPlayers := by
    rw [UInt8.toNat_ofNat']
    omega
  have hlen : ¬ 64 < (cString name).length := by
    have hle := cString_length name
    omega
  have hback : h.readBack = ⟨tadMagic, 5, h.numPlayers, h.maxUnits, cString name⟩ := by
    rw [Header.readBack, hmagic, hversion, hname]
  rw [Header.load, hback]
  simp only [hmagicAt, hversionAt, hplayersAt, hunitsAt, hrest, orBadRead, bind, Except.bind, hval]
  rw [if_neg (not_not.mpr rfl), if_neg (by omega : ¬ (5 < 3 ∨ 5 < 5))]
  by_cases hten : 10 < h.numPlayers
  · rw [if_pos hten, if_pos hten]
    rfl
  · rw [if_neg hten, if_neg hten]
    by_cases hmany : 5000 < h.maxUnits
    · rw [if_pos hmany, if_pos hmany]
      rfl
    · rw [if_neg hmany, if_neg hmany, if_neg hlen]
      by_cases hprint : (cString name).any (!isprint ·) = true
      · rw [if_pos hprint, if_pos hprint]
        rfl
      · rw [if_neg hprint, if_neg hprint]
        rfl

end header

/-- What is read back of a name that is written. -/
def Player.readBack (p : Player) : Player := { p with name := cString (p.name.take 16) }

theorem load_extraHeader {n : ℕ} (h : n ≤ 10000) : ExtraHeader.load (ExtraHeader.serialise ⟨n⟩) = .ok ⟨n⟩ := by
  have hread : u32At (leBytes 4 n ++ [0]) 0 = some n := u32At_append [] [0] n (by omega)
  rw [ExtraHeader.load, ExtraHeader.serialise, uint32At]
  simp only [hread, orBadRead, bind, Except.bind]
  rw [if_neg (by omega)]
  rfl

theorem load_extraSector {es : ExtraSector} (h : es.sectorType < 2 ^ 32) :
    ExtraSector.load es.serialise = .ok es := by
  have hread : u32At (leBytes 4 es.sectorType ++ es.data ++ [0]) 0 = some es.sectorType := by
    rw [List.append_assoc]
    exact u32At_append [] _ es.sectorType h
  have hrest : substr (leBytes 4 es.sectorType ++ es.data) 4 = .ok es.data := by
    rw [substr, if_pos (by rw [List.length_append, length_leBytes]; omega),
      List.drop_left' (length_leBytes 4 _)]
  rw [ExtraSector.load, ExtraSector.serialise, uint32At, hread]
  simp only [orBadRead, hrest, bind, Except.bind]
  rfl

theorem load_player {p : Player} (h : p.side.toInt8.toInt = p.side) :
    Player.load p.serialise = .ok p.readBack := by
  have hside : p.side.toInt8.toUInt8.toInt8.toInt = p.side := by
    have hback : p.side.toInt8.toUInt8.toInt8 = p.side.toInt8 := by simp
    rw [hback, h]
  rw [Player.load, Player.serialise]
  simp only [List.cons_append, List.nil_append, charAt, List.getElem?_cons_zero, List.getElem?_cons_succ,
    orBadRead, bind, Except.bind, substr, List.length_cons]
  rw [if_pos (by omega)]
  simp only [List.drop_succ_cons, List.drop_zero, hside]
  rfl

theorem load_playerStatusMessage (number : Byte) {status : Bytes} (h : status.length + 9 ≤ 2 ^ 32) (q : ℕ) :
    ∃ c, compress (trivialSmartpak status q) = some c ∧
      PlayerStatusMessage.load (PlayerStatusMessage.serialise ⟨number, encrypt c⟩) = .ok ⟨number, status⟩ ∧
      (encrypt c).length ≤ 7 + status.length := by
  obtain ⟨c, m, check, d1, d2, hc, hdecrypt, hdecompress, hlen, hle⟩ := exists_decoded status q [number] h
  refine ⟨c, hc, ?_, hlen ▸ hle⟩
  have hrecord : PlayerStatusMessage.serialise ⟨number, encrypt c⟩ = [number] ++ encrypt c := rfl
  have hcount : ([number] ++ encrypt c).length - 1 = m.length := by
    rw [List.length_append, List.length_singleton, Nat.add_sub_cancel_left, hlen]
  have hcount' : ([number] ++ m).length - 1 = m.length := by
    rw [List.length_append, List.length_singleton, Nat.add_sub_cancel_left]
  have hmessage : decompressN (([number] ++ m ++ [0]).drop 1) (unsigned m.length) 3 =
    some (0x03 :: d1 :: d2 :: (leBytes 4 q ++ status)) := hdecompress
  have hrest : substr (0x03 :: d1 :: d2 :: (leBytes 4 q ++ status)) 7 = .ok status := by
    rw [substr, if_pos (by simp only [List.length_cons, List.length_append, length_leBytes]; omega)]
    show Except.ok ((leBytes 4 q ++ status).drop 4) = _
    rw [List.drop_left' (length_leBytes 4 q)]
  have hone : ([number] : Bytes).length = 1 := rfl
  rw [hone] at hdecrypt
  rw [PlayerStatusMessage.load, hrecord]
  simp only [hdecrypt, hcount', hmessage, orBadRead, hrest, bind, Except.bind]
  rfl

theorem TADemoWriter.frame_eq {record : Bytes} (h : TADemoWriter.Fits record) : ∃ b1 b2,
    TADemoWriter.frame record = b1 :: b2 :: record ∧ leVal [b1, b2] = 2 + record.length := by
  have hval := leVal_leBytes 2 (2 + record.length)
  rw [Nat.mod_eq_of_lt (by simpa [TADemoWriter.Fits] using h)] at hval
  exact ⟨_, _, rfl, hval⟩

namespace RecordReader

theorem read_length1 {r : RecordReader} (hr : r.state = .READ_RECLEN1) (b : Byte) (is : Bytes) :
    readLength1 r (b :: is) =
      (.ok (), ⟨.READ_RECLEN2, (b, r.recordLength.2), r.readBuffer, r.bytesRead, r.tellg + 1⟩, is) := by
  rw [readLength1, if_pos hr]

/-- A whole record that is to be read next is read, and what comes behind it is left. -/
theorem read_frame {r : RecordReader} (hr : r.state = .READ_RECLEN1) {record : Bytes}
    (hfits : TADemoWriter.Fits record) (hread : Readable record) (rest : Bytes) :
    ∃ r', r'.state = .READ_RECLEN1 ∧
      read r (TADemoWriter.frame record ++ rest) = (.ok record, r', rest) := by
  obtain ⟨b1, b2, hframe, hlen⟩ := TADemoWriter.frame_eq hfits
  have hreal : ¬ (32768 < leVal [b1, b2] ∨ leVal [b1, b2] ≤ 2) := by
    obtain ⟨hpos, hmax⟩ := hread
    omega
  have hlen2 : leVal [b1, b2] - 2 = record.length := by omega
  have hsecond : readLength2 ⟨.READ_RECLEN2, (b1, r.recordLength.2), r.readBuffer, r.bytesRead, r.tellg + 1⟩
        (b2 :: (record ++ rest)) =
      (.ok (), ⟨.READ_RECORD, (b1, b2), List.replicate record.length 0, 0, r.tellg + 1 + 1⟩, record ++ rest) := by
    rw [readLength2, if_pos rfl, setLength]
    dsimp only
    rw [if_neg hreal, hlen2]
  obtain ⟨r', hr', hbody⟩ : ∃ r' : RecordReader, r'.state = .READ_RECLEN1 ∧
      readRecord ⟨.READ_RECORD, (b1, b2), List.replicate record.length 0, 0, r.tellg + 1 + 1⟩ (record ++ rest) =
        (.ok record, r', rest) := by
    rw [readRecord, if_pos rfl]
    simp only [fill, List.length_replicate, Nat.sub_zero, List.take_left, List.drop_left, Nat.zero_add,
      List.take_zero, List.nil_append, List.drop_replicate, Nat.sub_self, List.replicate_zero, List.append_nil,
      lt_irrefl, if_false]
    exact ⟨_, rfl, rfl⟩
  refine ⟨r', hr', ?_⟩
  rw [hframe, List.cons_append, List.cons_append, read, Reader.bind_ok (read_length1 hr b1 _),
    Reader.bind_ok hsecond]
  exact hbody

theorem read_unreadable {r : RecordReader} (hr : r.state = .READ_RECLEN1) {record : Bytes}
    (hfits : TADemoWriter.Fits record) (hread : ¬ Readable record) (rest : Bytes) :
    ∃ e r' is, read r (TADemoWriter.frame record ++ rest) = (.error (.failed e), r', is) := by
  obtain ⟨b1, b2, hframe, hlen⟩ := TADemoWriter.frame_eq hfits
  have hunreal : 32768 < leVal [b1, b2] ∨ leVal [b1, b2] ≤ 2 := by
    rw [Readable] at hread
    omega
  obtain ⟨e, r', hsecond⟩ : ∃ e r',
      readLength2 ⟨.READ_RECLEN2, (b1, r.recordLength.2), r.readBuffer, r.bytesRead, r.tellg + 1⟩
        (b2 :: (record ++ rest)) =
      (.error (.failed e), r', record ++ rest) := by
    rw [readLength2, if_pos rfl, setLength]
    dsimp only
    rw [if_pos hunreal]
    exact ⟨_, _, rfl⟩
  refine ⟨e, r', record ++ rest, ?_⟩
  rw [hframe, List.cons_append, List.cons_append, read, Reader.bind_ok (read_length1 hr b1 _),
    Reader.bind_error hsecond]

end RecordReader

namespace DemoParser
open TADemoWriter

def withReader (recordReader : RecordReader) (s : DemoParser) : DemoParser := { s with recordReader }

theorem next_withReader (r : RecordReader) (s : DemoParser) (data : Bytes) :
    next (s.withReader r) data = (next s data).map (withReader r) := by
  have hheader : onHeader (s.withReader r) data = (s.onHeader data).map (withReader r) := by
    simp only [onHeader]
    cases Header.load data <;> rfl
  have hextra : onExtraHeader (s.withReader r) data = (s.onExtraHeader data).map (withReader r) := by
    simp only [onExtraHeader]
    cases ExtraHeader.load data <;> rfl
  have hsector : ∀ n, onExtraSector n (s.withReader r) data = (s.onExtraSector n data).map (withReader r) := by
    intro n
    simp only [onExtraSector]
    cases ExtraSector.load data <;> rfl
  have hplayer : ∀ n, onPlayer n (s.withReader r) data = (s.onPlayer n data).map (withReader r) := by
    intro n
    simp only [onPlayer]
    cases Player.load data <;> rfl
  have hstatus : ∀ n, onPlayerStatusMessage n (s.withReader r) data =
      (s.onPlayerStatusMessage n data).map (withReader r) := by
    intro n
    simp only [onPlayerStatusMessage, bind, Except.bind]
    cases PlayerStatusMessage.load data with
    | error e => rfl
    | ok msg =>
      dsimp only
      cases uint32At msg.statusMessage 0x91 <;> rfl
  have hunit : onUnitData (s.withReader r) data = (s.onUnitData data).map (withReader r) := rfl
  have hpacket : ∀ n, onPacket n (s.withReader r) data = (s.onPacket n data).map (withReader r) := by
    intro n
    simp only [onPacket, bind, Except.bind]
    cases Packet.load data with
    | error e => rfl
    | ok p =>
      dsimp only
      cases orBadRead (unsmartpak p.data (n = 3) false) <;> rfl
  cases hknown : s.header with
  | none =>
    have hknown' : (s.withReader r).header = none := hknown
    rw [next, next, hknown, hknown']
    exact hheader
  | some header =>
    have hknown' : (s.withReader r).header = some header := hknown
    rw [next, next, hknown, hknown']
    simp only [apply_ite (Except.map (withReader r)), ← hextra, ← hsector, ← hplayer, ← hstatus, ← hunit,
      ← hpacket]
    rfl

variable {s : DemoParser}

theorem takeByte_more {r r' : RecordReader} {b : Byte} (h : r.takeByte b = (.ok none, r')) :
    takeByte (s.withReader r) b = .ok (s.withReader r') := by
  have hread : (s.withReader r).recordReader.takeByte b = (.ok none, r') := h
  rw [takeByte, hread]
  rfl

theorem takeByte_record {r r' : RecordReader} {b : Byte} {data : Bytes}
    (h : r.takeByte b = (.ok (some data), r')) : takeByte (s.withReader r) b = next (s.withReader r') data := by
  have hread : (s.withReader r).recordReader.takeByte b = (.ok (some data), r') := h
  rw [takeByte, hread]
  rfl

theorem takeByte_failure {r r' : RecordReader} {b : Byte} {e : Failure}
    (h : r.takeByte b = (.error e, r')) : takeByte (s.withReader r) b = .error e := by
  have hread : (s.withReader r).recordReader.takeByte b = (.error e, r') := h
  rw [takeByte, hread]

theorem feed_body {r : RecordReader} (hstate : r.state = .READ_RECORD) (bs done rest : Bytes) (hbs : bs ≠ [])
    (hbuffer : r.readBuffer = done ++ List.replicate bs.length 0) (hread : r.bytesRead = done.length) :
    ∃ r', r'.state = RecordReader.State.READ_RECLEN1 ∧
      feed takeByte (s.withReader r) (bs ++ rest) =
        (next (s.withReader r') (done ++ bs)).bind fun s => feed takeByte s rest := by
  induction bs generalizing r done with
  | nil => exact absurd rfl hbs
  | cons b bs ih =>
    have hfill : (r.fill [b]).readBuffer = done ++ [b] ++ List.replicate bs.length 0 := by
      simp [RecordReader.fill, hbuffer, hread, List.replicate_succ]
    have hcount : (r.fill [b]).bytesRead = (done ++ [b]).length := by
      simp [RecordReader.fill, hread]
    have hstate' : (r.fill [b]).state = .READ_RECORD := hstate
    by_cases hnil : bs = []
    · subst hnil
      have hfull : ¬ (r.fill [b]).bytesRead < (r.fill [b]).readBuffer.length := by
        rw [hcount, hfill]
        simp
      have htake : r.takeByte b = (.ok (some (done ++ [b])),
          { r.fill [b] with readBuffer := [], bytesRead := 0, state := .READ_RECLEN1 }) := by
        rw [RecordReader.takeByte, hstate]
        dsimp only
        rw [if_neg hfull, hfill]
        simp
      refine ⟨{ r.fill [b] with readBuffer := [], bytesRead := 0, state := .READ_RECLEN1 }, rfl, ?_⟩
      rw [List.cons_append, feed_cons, takeByte_record htake]
      rfl
    · have hmore : (r.fill [b]).bytesRead < (r.fill [b]).readBuffer.length := by
        have hpos : 0 < bs.length := List.length_pos_iff.mpr hnil
        rw [hcount, hfill]
        simp only [List.length_append, List.length_replicate]
        omega
      have htake : r.takeByte b = (.ok none, r.fill [b]) := by
        rw [RecordReader.takeByte, hstate]
        dsimp only
        rw [if_pos hmore]
      obtain ⟨r', hr', hfeed⟩ := ih hstate' (done ++ [b]) hnil hfill hcount
      refine ⟨r', hr', ?_⟩
      rw [List.append_assoc] at hfeed
      rw [List.cons_append, feed_cons, takeByte_more htake]
      exact hfeed

theorem takeByte_length1 {r : RecordReader} (hrest : r.state = .READ_RECLEN1) (b : Byte) :
    takeByte (s.withReader r) b = .ok (s.withReader
      { r with recordLength := (b, r.recordLength.2), state := .READ_RECLEN2, tellg := r.tellg + 1 }) := by
  apply takeByte_more
  rw [RecordReader.takeByte, hrest]

theorem takeByte_length2 {r : RecordReader} (hstate : r.state = .READ_RECLEN2) (b : Byte) :
    takeByte (s.withReader r) b =
      if 32768 < leVal [r.recordLength.1, b] ∨ leVal [r.recordLength.1, b] ≤ 2 then
        .error (RecordReader.unrealistic (leVal [r.recordLength.1, b]) (r.tellg + 1))
      else .ok (s.withReader ⟨.READ_RECORD, (r.recordLength.1, b),
        List.replicate (leVal [r.recordLength.1, b] - 2) 0, 0, r.tellg + 1⟩) := by
  by_cases h : 32768 < leVal [r.recordLength.1, b] ∨ leVal [r.recordLength.1, b] ≤ 2
  · have hset : r.setLength b = (.error (RecordReader.unrealistic (leVal [r.recordLength.1, b]) (r.tellg + 1)),
        { r with recordLength := (r.recordLength.1, b), tellg := r.tellg + 1 }) := if_pos h
    rw [if_pos h]
    apply takeByte_failure
    rw [RecordReader.takeByte, hstate]
    dsimp only
    rw [hset]
  · have hset : r.setLength b = (.ok (), ⟨.READ_RECORD, (r.recordLength.1, b),
        List.replicate (leVal [r.recordLength.1, b] - 2) 0, 0, r.tellg + 1⟩) := if_neg h
    rw [if_neg h]
    apply takeByte_more
    rw [RecordReader.takeByte, hstate]
    dsimp only
    rw [hset]

theorem feed_frame {r : RecordReader} (hrest : r.state = .READ_RECLEN1) {record : Bytes} (hfits : Fits record)
    (hread : Readable record) (rest : Bytes) :
    ∃ r', r'.state = RecordReader.State.READ_RECLEN1 ∧
      feed takeByte (s.withReader r) (frame record ++ rest) =
        (next (s.withReader r') record).bind fun s => feed takeByte s rest := by
  obtain ⟨b1, b2, hframe, hlen⟩ := frame_eq hfits
  have hreal : ¬ (32768 < leVal [b1, b2] ∨ leVal [b1, b2] ≤ 2) := by
    obtain ⟨hpos, hmax⟩ := hread
    omega
  have hne : record ≠ [] := List.length_pos_iff.mp hread.1
  obtain ⟨r', hr', hfeed⟩ := feed_body (s := s) (r := ⟨.READ_RECORD, (b1, b2),
    List.replicate (leVal [b1, b2] - 2) 0, 0, r.tellg + 1 + 1⟩) rfl record [] rest hne
    (by rw [hlen, Nat.add_sub_cancel_left, List.nil_append]) rfl
  refine ⟨r', hr', ?_⟩
  rw [hframe, List.cons_append, List.cons_append, feed_cons, takeByte_length1 hrest]
  show feed takeByte (s.withReader _) (b2 :: (record ++ rest)) = _
  rw [feed_cons, takeByte_length2 rfl, if_neg hreal]
  exact hfeed

theorem feed_unreadable {r : RecordReader} (hrest : r.state = .READ_RECLEN1) {record : Bytes}
    (hfits : Fits record) (hread : ¬ Readable record) (rest : Bytes) (s' : DemoParser) :
    feed takeByte (s.withReader r) (frame record ++ rest) ≠ .ok s' := by
  obtain ⟨b1, b2, hframe, hlen⟩ := frame_eq hfits
  have hunreal : 32768 < leVal [b1, b2] ∨ leVal [b1, b2] ≤ 2 := by
    rw [Readable] at hread
    omega
  rw [hframe, List.cons_append, List.cons_append, feed_cons, takeByte_length1 hrest]
  show feed takeByte (s.withReader _) (b2 :: (record ++ rest)) ≠ _
  rw [feed_cons, takeByte_length2 rfl, if_pos hunreal]
  intro h
  cases h

theorem feed_frames {r : RecordReader} (hrest : r.state = .READ_RECLEN1) {records : List Bytes}
    (hfits : ∀ record ∈ records, Fits record) (hread : ∀ record ∈ records, Readable record) :
    ∃ r', r'.state = RecordReader.State.READ_RECLEN1 ∧
      feed takeByte (s.withReader r) (records.flatMap frame) = (records.foldlM next s).map (withReader r') := by
  induction records generalizing s r with
  | nil => exact ⟨r, hrest, rfl⟩
  | cons record records ih =>
    obtain ⟨r1, hr1, hfirst⟩ := feed_frame (s := s) hrest (hfits _ List.mem_cons_self)
      (hread _ List.mem_cons_self) (records.flatMap frame)
    rw [List.flatMap_cons, hfirst, next_withReader, List.foldlM_cons]
    cases hnext : next s record with
    | error e => exact ⟨r, hrest, rfl⟩
    | ok s1 =>
      exact ih hr1 (fun t ht => hfits t (List.mem_cons_of_mem _ ht)) fun t ht =>
        hread t (List.mem_cons_of_mem _ ht)

theorem feed_frames_unreadable {r : RecordReader} (hrest : r.state = .READ_RECLEN1) {records : List Bytes}
    (hfits : ∀ record ∈ records, Fits record) (hread : ¬ ∀ record ∈ records, Readable record)
    (s' : DemoParser) : feed takeByte (s.withReader r) (records.flatMap frame) ≠ .ok s' := by
  induction records generalizing s r with
  | nil => exact absurd (fun t ht => absurd ht List.not_mem_nil) hread
  | cons record records ih =>
    have hfit := hfits _ List.mem_cons_self
    by_cases hfirst : Readable record
    · obtain ⟨r1, hr1, hframe⟩ := feed_frame (s := s) hrest hfit hfirst (records.flatMap frame)
      rw [List.flatMap_cons, hframe, next_withReader]
      cases hnext : next s record with
      | error e =>
        intro h
        cases h
      | ok s1 =>
        apply ih hr1 fun t ht => hfits t (List.mem_cons_of_mem _ ht)
        intro hall
        apply hread
        intro t ht
        rcases List.mem_cons.mp ht with rfl | ht
        · exact hfirst
        · exact hall t ht
    · rw [List.flatMap_cons]
      exact feed_unreadable hrest hfit hfirst _ s'

/-! ### The parts of a file -/

/-- A parser between the parts of a version 5 file. -/
def stage (header : Header) (sectors i j k : ℕ) (handled : List Callback) : DemoParser where
  recordReader := .new
  header := some header
  extraHeader := some ⟨sectors⟩
  numExtraSectorsRead := i
  numPlayersRead := j
  numPlayerStatusMessagesRead := k
  numUnitDataRead := 0
  numPacketsRead := 0
  handled := handled

variable {header : Header} {sectors i j k : ℕ} {handled : List Callback}

theorem next_sector (hversion : header.version = 5) (hi : i < sectors) (data : Bytes) :
    next (stage header sectors i j k handled) data =
      onExtraSector sectors (stage header sectors i j k handled) data := by
  simp [next, stage, numSectors, hversion, hi]

theorem next_player (hj : j < header.numPlayers) (data : Bytes) :
    next (stage header sectors sectors j k handled) data =
      onPlayer header.numPlayers (stage header sectors sectors j k handled) data := by
  simp [next, stage, numSectors, hj]

theorem next_status (hk : k < header.numPlayers) (data : Bytes) :
    next (stage header sectors sectors header.numPlayers k handled) data =
      onPlayerStatusMessage header.numPlayers (stage header sectors sectors header.numPlayers k handled) data := by
  simp [next, stage, numSectors, hk]

theorem next_unitData (data : Bytes) :
    next (stage header sectors sectors header.numPlayers header.numPlayers handled) data =
      onUnitData (stage header sectors sectors header.numPlayers header.numPlayers handled) data := by
  simp [next, stage, numSectors]

theorem next_extraHeader (hversion : header.version = 5) (data : Bytes) :
    next ⟨.new, some header, none, 0, 0, 0, 0, 0, handled⟩ data =
      onExtraHeader ⟨.new, some header, none, 0, 0, 0, 0, 0, handled⟩ data := by
  simp [next, hversion]

theorem foldlM_sectors (hversion : header.version = 5) (written : List ExtraSector) (htype : ∀ es ∈ written, es.sectorType < 2 ^ 32)
    (hi : i + written.length ≤ sectors) :
    ∃ calls : List Callback, (∀ c ∈ calls, ∃ es n m, c = .extraSector es n m) ∧
      (written.map (·.serialise)).foldlM next (stage header sectors i j k handled) =
        .ok (stage header sectors (i + written.length) j k (handled ++ calls)) := by
  induction written generalizing i handled with
  | nil => exact ⟨[], fun c hc => absurd hc List.not_mem_nil, by simp [pure, Except.pure]⟩
  | cons es written ih =>
    rw [List.length_cons] at hi
    obtain ⟨es', hes⟩ : ∃ es', onExtraSector sectors (stage header sectors i j k handled) es.serialise =
        .ok (stage header sectors (i + 1) j k (handled ++ [.extraSector es' i sectors])) := by
      rw [onExtraSector, load_extraSector (htype es List.mem_cons_self)]
      exact ⟨_, rfl⟩
    have hmore : i + 1 + written.length ≤ sectors := by omega
    obtain ⟨calls, hcalls, hrest⟩ := @ih (i + 1) (handled ++ [.extraSector es' i sectors])
      (fun t ht => htype t (List.mem_cons_of_mem _ ht)) hmore
    refine ⟨.extraSector es' i sectors :: calls, ?_, ?_⟩
    · intro c hc
      rcases List.mem_cons.mp hc with rfl | hc
      · exact ⟨_, _, _, rfl⟩
      · exact hcalls c hc
    · rw [List.map_cons, List.foldlM_cons, next_sector hversion (by omega), hes]
      show List.foldlM next _ _ = _
      rw [hrest, List.append_assoc, List.length_cons, Nat.add_assoc, Nat.add_comm 1]
      rfl

theorem foldlM_players (players : List Player) (hside : ∀ p ∈ players, p.side.toInt8.toInt = p.side)
    (hj : j + players.length ≤ header.numPlayers) :
    (players.map (·.serialise)).foldlM next (stage header sectors sectors j k handled) =
      .ok (stage header sectors sectors (j + players.length) k
        (handled ++ (players.zipIdx j).map fun p => .player p.1.readBack p.2 header.numPlayers)) := by
  induction players generalizing j handled with
  | nil => simp [pure, Except.pure]
  | cons p players ih =>
    rw [List.length_cons] at hj
    have hp : onPlayer header.numPlayers (stage header sectors sectors j k handled) p.serialise =
        .ok (stage header sectors sectors (j + 1) k
          (handled ++ [.player p.readBack j header.numPlayers])) := by
      rw [onPlayer, load_player (hside p List.mem_cons_self)]
      rfl
    rw [List.map_cons, List.foldlM_cons, next_player (by omega), hp]
    show List.foldlM next _ _ = _
    rw [ih (fun t ht => hside t (List.mem_cons_of_mem _ ht)) (by omega), List.append_assoc, List.length_cons,
      Nat.add_assoc, Nat.add_comm 1, List.zipIdx_cons, List.map_cons]
    rfl

theorem onPlayerStatusMessage_eq {data : Bytes} {msg : PlayerStatusMessage} {dplayid : ℕ}
    (hload : PlayerStatusMessage.load data = .ok msg) (hid : uint32At msg.statusMessage 0x91 = .ok dplayid) :
    onPlayerStatusMessage header.numPlayers (stage header sectors sectors header.numPlayers k handled) data =
      .ok (stage header sectors sectors header.numPlayers (k + 1)
        (handled ++ [.playerStatusMessage msg dplayid k header.numPlayers])) := by
  simp only [onPlayerStatusMessage, hload, hid, bind, Except.bind]
  rfl

/-- The status records of `users`, when each of them can be read. -/
theorem foldlM_statuses {α : Type} (users : List α) (record : α → Bytes) (msg : α → PlayerStatusMessage)
    (dplayid : α → ℕ) (hload : ∀ u ∈ users, PlayerStatusMessage.load (record u) = .ok (msg u))
    (hid : ∀ u ∈ users, uint32At (msg u).statusMessage 0x91 = .ok (dplayid u))
    (hk : k + users.length ≤ header.numPlayers) :
    (users.map record).foldlM next (stage header sectors sectors header.numPlayers k handled) =
      .ok (stage header sectors sectors header.numPlayers (k + users.length) (handled ++
        (users.zipIdx k).map fun u => .playerStatusMessage (msg u.1) (dplayid u.1) u.2 header.numPlayers)) := by
  induction users generalizing k handled with
  | nil => simp [pure, Except.pure]
  | cons u users ih =>
    rw [List.length_cons] at hk
    rw [List.map_cons, List.foldlM_cons, next_status (by omega),
      onPlayerStatusMessage_eq (hload u List.mem_cons_self) (hid u List.mem_cons_self)]
    show List.foldlM next _ _ = _
    rw [ih (fun t ht => hload t (List.mem_cons_of_mem _ ht)) (fun t ht => hid t (List.mem_cons_of_mem _ ht))
      (by omega), List.append_assoc, List.length_cons, Nat.add_assoc, Nat.add_comm 1, List.zipIdx_cons,
      List.map_cons]
    rfl

/-- A status message that is too short for its Dplay id ends the reading. -/
theorem foldlM_statuses_error {α : Type} (users : List α) (record : α → Bytes) (msg : α → PlayerStatusMessage)
    (hload : ∀ u ∈ users, PlayerStatusMessage.load (record u) = .ok (msg u)) (rest : List Bytes)
    (hk : k + users.length ≤ header.numPlayers) {s' : DemoParser}
    (h : (users.map record ++ rest).foldlM next (stage header sectors sectors header.numPlayers k handled) =
      .ok s') : ∀ u ∈ users, ∃ id, uint32At (msg u).statusMessage 0x91 = .ok id := by
  induction users generalizing k handled with
  | nil => exact fun u hu => absurd hu List.not_mem_nil
  | cons u users ih =>
    rw [List.length_cons] at hk
    rw [List.map_cons, List.cons_append, List.foldlM_cons, next_status (by omega)] at h
    cases hid : uint32At (msg u).statusMessage 0x91 with
    | error e =>
      simp only [onPlayerStatusMessage, hload u List.mem_cons_self, hid, bind, Except.bind] at h
      cases h
    | ok id =>
      rw [onPlayerStatusMessage_eq (hload u List.mem_cons_self) hid] at h
      have h : List.foldlM next (stage header sectors sectors header.numPlayers (k + 1) (handled ++
          [.playerStatusMessage (msg u) id k header.numPlayers])) (users.map record ++ rest) = .ok s' := h
      have htail := ih (fun t ht => hload t (List.mem_cons_of_mem _ ht)) (by omega) h
      intro t ht
      rcases List.mem_cons.mp ht with rfl | ht
      · exact ⟨id, hid⟩
      · exact htail t ht

end DemoParser

/-! ### Reading a finished file -/

def Callback.isExtraSector : Callback → Bool
  | .extraSector .. => true
  | _ => false

/-- A parser that is given the whole file does not fail and hands over these values, whatever
its counters were and however many packets it is asked for. -/
def ReadBack (output : Bytes) (values : List Callback) : Prop :=
  ∀ (n : ℤ) (maxPaksToLoad : ℕ), ∃ f, (Follower.new n).run [.grow output, .parse maxPaksToLoad] = .ok f ∧
    f.parser.handled.filter (!·.isExtraSector) = values

theorem readBack_iff {output : Bytes} {values : List Callback} (hvalues : ∀ c ∈ values, DemoParser.Callback.isPacket c = false) :
    ReadBack output values ↔ ∃ s : DemoParser, feed DemoParser.takeByte .new output = .ok s ∧
      s.handled.filter (!·.isExtraSector) = values := by
  constructor
  · intro h
    obtain ⟨f, hf, hhandled⟩ := h 0 0
    exact ⟨f.parser, Follower.feed_oneShot hf, hhandled⟩
  · intro hx n m
    obtain ⟨s, hs, hhandled⟩ := hx
    have hpackets : s.packets = 0 := by
      rw [DemoParser.packets, List.countP_eq_zero]
      intro c hc hpacket
      have hmem : c ∈ values := by
        rw [← hhandled, List.mem_filter]
        cases c with
        | packet p unpaked n => exact ⟨hc, rfl⟩
        | _ => cases hpacket
      rw [hvalues c hmem] at hpacket
      cases hpacket
    obtain ⟨f0, hrun0, hf0⟩ := Follower.run_follows hs n [.grow output] (by simp [Follower.available, Follower.Event.bytes])
    have hall : Follower.available [.grow output] = output := by
      simp [Follower.available, Follower.Event.bytes]
    rw [hall] at hf0
    have hnew : f0 = ⟨.new, n, output⟩ := (Except.ok.inj hrun0).symm
    obtain ⟨f, hrun, ⟨l, hl, hfeed⟩, -, hend⟩ := Follower.run_parses hs hf0 (List.cons_ne_nil m [])
    refine ⟨f, ?_, ?_⟩
    · have hsplit : [Event.grow output, .parse m] = [.grow output] ++ [m].map .parse := rfl
      rw [hsplit, Follower.run_append, hrun0]
      exact hrun
    · rw [hl, feed_append_ok hfeed] at hs
      rcases hend with hnil | ⟨hm, header, hat⟩
      · rw [hnil, feed_nil] at hs
        rw [Except.ok.inj hs]
        exact hhandled
      · -- it would have handed over as many packets as were asked for
        exfalso
        obtain ⟨cs, hcs, -⟩ := DemoParser.feed_handled hs
        have hk : f.parser.packets = f0.parser.packets + [m].sum := hat.1.1.1.1.2
        have hle : f.parser.packets ≤ s.packets := by
          rw [DemoParser.packets, DemoParser.packets, hcs, List.countP_append]
          exact Nat.le_add_right _ _
        have hpos : m ≠ 0 := fun hzero => hm (hzero ▸ List.mem_singleton_self _)
        rw [hk, hpackets, List.sum_singleton] at hle
        omega

/-- A file of records is read back when each of them has a length that the reader takes and
what it means can be handled. -/
theorem readBack_frames_iff {records : List Bytes} {values : List Callback}
    (hfits : ∀ record ∈ records, TADemoWriter.Fits record) (hvalues : ∀ c ∈ values, DemoParser.Callback.isPacket c = false) :
    ReadBack (records.flatMap TADemoWriter.frame) values ↔
      (∀ record ∈ records, Readable record) ∧
        ∃ s : DemoParser, records.foldlM DemoParser.next .new = .ok s ∧
          s.handled.filter (!·.isExtraSector) = values := by
  have hnew : DemoParser.new = DemoParser.new.withReader .new := rfl
  rw [readBack_iff hvalues]
  by_cases hread : ∀ record ∈ records, Readable record
  · obtain ⟨r, -, hfeed⟩ := DemoParser.feed_frames (s := .new) (r := .new) rfl hfits hread
    rw [← hnew] at hfeed
    rw [hfeed]
    constructor
    · intro h
      obtain ⟨s, hs, hhandled⟩ := h
      cases hfold : records.foldlM DemoParser.next .new with
      | error e =>
        rw [hfold] at hs
        cases hs
      | ok s' =>
        rw [hfold] at hs
        cases hs
        exact ⟨hread, s', rfl, hhandled⟩
    · intro h
      obtain ⟨-, s, hs, hhandled⟩ := h
      rw [hs]
      exact ⟨_, rfl, hhandled⟩
  · constructor
    · intro h
      obtain ⟨s, hs, -⟩ := h
      rw [hnew] at hs
      exact absurd hs (DemoParser.feed_frames_unreadable rfl hfits hread s)
    · intro h
      obtain ⟨hbad, -⟩ := h
      exact absurd hbad hread

end Gpgnet4TA.Tapacket
