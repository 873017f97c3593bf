import Gpgnet4TA.Tapacket.DemoParser

/-!
# Following a growing demo file

Whatever the calls of `parse` are, the parser takes in the bytes of the file one by one:
`takeByte` says what a single byte does. The state after a schedule is then determined by
how many bytes it has taken in.
-/

namespace Gpgnet4TA.Tapacket
open Gpgnet4TA.Lib Gpgnet4TA.Lib.Resumable

/-! ### The record reader, byte by byte -/

namespace RecordReader

/-- A byte, and the record that it completes. -/
def takeByte (r : RecordReader) (b : Byte) : Except Failure (Option Bytes) × RecordReader :=
  match r.state with
  | .READ_RECLEN1 =>
    (.ok none, { r with
      recordLength := (b, r.recordLength.2), state := .READ_RECLEN2, tellg := r.tellg + 1 })
  | .READ_RECLEN2 =>
    match r.setLength b with
    | (.ok (), r) => (.ok none, r)
    | (.error e, r) => (.error e, r)
  | .READ_RECORD =>
    let r := r.fill [b]
    if r.bytesRead < r.readBuffer.length then (.ok none, r)
    else
      (.ok (some r.readBuffer), { r with readBuffer := [], bytesRead := 0, state := .READ_RECLEN1 })

/-- A record that is being read is not complete. -/
def Valid (r : RecordReader) : Prop := r.state = .READ_RECORD → r.bytesRead < r.readBuffer.length

/-- What `read` makes of the bytes that are there. -/
inductive Reads : RecordReader → Bytes → Except Stop Bytes × RecordReader × Bytes → Prop
  | wait {r : RecordReader} : Reads r [] (.error .dataNotReady, r, [])
  | next {r r' : RecordReader} {b : Byte} {is : Bytes} {out : Except Stop Bytes × RecordReader × Bytes} :
      r.takeByte b = (.ok none, r') → Reads r' is out → Reads r (b :: is) out
  | done {r r' : RecordReader} {b : Byte} {is data : Bytes} :
      r.takeByte b = (.ok (some data), r') → Reads r (b :: is) (.ok data, r', is)
  | fail {r r' : RecordReader} {b : Byte} {is : Bytes} {e : Failure} :
      r.takeByte b = (.error e, r') → Reads r (b :: is) (.error (.failed e), r', is)

theorem fill_nil (r : RecordReader) : r.fill [] = r := by
  simp [fill]

theorem length_fill (r : RecordReader) {bs : Bytes} (h : r.bytesRead + bs.length ≤ r.readBuffer.length) :
    (r.fill bs).readBuffer.length = r.readBuffer.length := by
  simp only [fill, List.length_append, List.length_take, List.length_drop]
  omega

theorem fill_cons (r : RecordReader) (b : Byte) (bs : Bytes) (h : r.bytesRead < r.readBuffer.length) :
    (r.fill [b]).fill bs = r.fill (b :: bs) := by
  have hpre : (r.readBuffer.take r.bytesRead ++ [b]).length = r.bytesRead + 1 := by
    rw [List.length_append, List.length_take, Nat.min_eq_left h.le]
    rfl
  have htake : (r.fill [b]).readBuffer.take (r.bytesRead + 1) = r.readBuffer.take r.bytesRead ++ [b] := by
    simp only [fill]
    exact List.take_left' hpre
  have hdrop : (r.fill [b]).readBuffer.drop (r.bytesRead + 1 + bs.length) =
      r.readBuffer.drop (r.bytesRead + (bs.length + 1)) := by
    simp only [fill]
    rw [← List.drop_drop, List.drop_left' hpre, List.drop_drop, List.length_singleton]
    congr 1
    omega
  have hread : (r.fill [b]).bytesRead = r.bytesRead + 1 := rfl
  rw [fill, hread, htake, hdrop]
  simp only [fill, List.append_assoc, List.singleton_append, List.length_cons, List.length_nil]
  congr 1 <;> omega

theorem readRecord_cons {r : RecordReader} (hs : r.state = .READ_RECORD)
    (hv : r.bytesRead < r.readBuffer.length) (b : Byte) (is : Bytes) :
    readRecord r (b :: is) =
      if (r.fill [b]).bytesRead < (r.fill [b]).readBuffer.length then readRecord (r.fill [b]) is
      else (.ok (r.fill [b]).readBuffer,
        { r.fill [b] with readBuffer := [], bytesRead := 0, state := .READ_RECLEN1 }, is) := by
  have hlen : (r.fill [b]).readBuffer.length = r.readBuffer.length := r.length_fill (by simpa using hv)
  have hread : (r.fill [b]).bytesRead = r.bytesRead + 1 := rfl
  have hstate : (r.fill [b]).state = .READ_RECORD := hs
  obtain ⟨n, hn⟩ : ∃ n, r.readBuffer.length - r.bytesRead = n + 1 :=
    Nat.exists_eq_succ_of_ne_zero (by omega)
  have hn' : (r.fill [b]).readBuffer.length - (r.fill [b]).bytesRead = n := by
    rw [hlen, hread]
    omega
  have hfill := fill_cons r b (is.take n) hv
  unfold readRecord
  simp only [hs, hstate, if_true, hn, hn', List.take_succ_cons, List.drop_succ_cons, ← hfill]
  by_cases hmore : (r.fill [b]).bytesRead < (r.fill [b]).readBuffer.length
  · simp only [if_pos hmore]
  · have hzero : n = 0 := by omega
    subst hzero
    simp only [List.take_zero, List.drop_zero, fill_nil, if_neg hmore]

theorem reads_readRecord {r : RecordReader} (hs : r.state = .READ_RECORD)
    (hv : r.bytesRead < r.readBuffer.length) (is : Bytes) : Reads r is (readRecord r is) := by
  induction is generalizing r with
  | nil =>
    have h : readRecord r [] = (.error .dataNotReady, r, []) := by
      simp only [readRecord, hs, if_true, List.take_nil, List.drop_nil, fill_nil, if_pos hv]
    rw [h]
    exact .wait
  | cons b is ih =>
    rw [readRecord_cons hs hv]
    have htake : r.takeByte b = if (r.fill [b]).bytesRead < (r.fill [b]).readBuffer.length then
        (.ok none, r.fill [b]) else (.ok (some (r.fill [b]).readBuffer),
        { r.fill [b] with readBuffer := [], bytesRead := 0, state := .READ_RECLEN1 }) := by
      simp only [takeByte, hs]
    split
    · rename_i hlt
      rw [if_pos hlt] at htake
      exact .next htake (ih hs hlt)
    · rename_i hlt
      rw [if_neg hlt] at htake
      exact .done htake

theorem setLength_ok {r r' : RecordReader} {b : Byte} (h : r.setLength b = (.ok (), r')) :
    r'.state = .READ_RECORD ∧ r'.bytesRead < r'.readBuffer.length := by
  unfold setLength at h
  simp only [] at h
  split at h
  · cases h
  · cases h
    refine ⟨rfl, ?_⟩
    show 0 < (List.replicate _ _).length
    rw [List.length_replicate]
    omega

theorem reads_length2 {r : RecordReader} (hs : r.state = .READ_RECLEN2) (is : Bytes) :
    Reads r is ((do readLength2; readRecord : Reader Stop Byte RecordReader Bytes) r is) := by
  cases is with
  | nil =>
    have h : readLength2 r [] = (.error .dataNotReady, r, []) := by simp [readLength2, hs]
    rw [Reader.bind_error h]
    exact .wait
  | cons b is =>
    cases hset : r.setLength b with
    | mk x r' =>
      have htake : r.takeByte b = match r.setLength b with
          | (.ok (), r) => (.ok none, r)
          | (.error e, r) => (.error e, r) := by simp only [takeByte, hs]
      rw [hset] at htake
      cases x with
      | ok u =>
        have h : readLength2 r (b :: is) = (.ok (), r', is) := by
          simp only [readLength2, hs, if_true, hset]
        obtain ⟨hs', hv⟩ := setLength_ok hset
        rw [Reader.bind_ok h]
        exact .next htake (reads_readRecord hs' hv is)
      | error e =>
        have h : readLength2 r (b :: is) = (.error (.failed e), r', is) := by
          simp only [readLength2, hs, if_true, hset]
        rw [Reader.bind_error h]
        exact .fail htake

theorem reads_read {r : RecordReader} (hv : r.Valid) (is : Bytes) : Reads r is (read r is) := by
  have hskip1 : r.state ≠ .READ_RECLEN1 → readLength1 r is = (.ok (), r, is) := by
    intro h
    simp [readLength1, h]
  cases hs : r.state with
  | READ_RECLEN1 =>
    cases is with
    | nil =>
      have h : readLength1 r [] = (.error .dataNotReady, r, []) := by simp [readLength1, hs]
      rw [read, Reader.bind_error h]
      exact .wait
    | cons b is =>
      have h : readLength1 r (b :: is) = (.ok (), { r with
          recordLength := (b, r.recordLength.2), state := .READ_RECLEN2, tellg := r.tellg + 1 }, is) := by
        simp only [readLength1, hs, if_true]
      rw [read, Reader.bind_ok h]
      exact .next (by simp only [takeByte, hs]) (reads_length2 rfl is)
  | READ_RECLEN2 =>
    rw [read, Reader.bind_ok (hskip1 (by simp [hs]))]
    exact reads_length2 hs is
  | READ_RECORD =>
    have hskip2 : readLength2 r is = (.ok (), r, is) := by simp [readLength2, hs]
    rw [read, Reader.bind_ok (hskip1 (by simp [hs])), Reader.bind_ok hskip2]
    exact reads_readRecord hs (hv hs) is

theorem valid_takeByte {r r' : RecordReader} {b : Byte} {x : Option Bytes}
    (h : r.takeByte b = (.ok x, r')) : r'.Valid := by
  unfold takeByte at h
  split at h
  · cases h
    intro hs
    cases hs
  · split at h
    · rename_i hset
      cases h
      exact fun _ => (setLength_ok hset).2
    · cases h
  · simp only [] at h
    split at h
    · cases h
      exact fun _ => ‹_›
    · cases h
      intro hs
      cases hs

end RecordReader

/-! ### The parser, byte by byte -/

namespace DemoParser

/-- A version 5 file has a header for its extra sectors, and these are counted. -/
def numSectors (s : DemoParser) : ℕ := (s.extraHeader.map (·.numSectors)).getD 0

/-- What a record means depends on what has been read before it. -/
def next (s : DemoParser) (data : Bytes) : Except Failure DemoParser :=
  match s.header with
  | none => s.onHeader data
  | some header =>
    if 4 < header.version ∧ s.extraHeader.isNone then s.onExtraHeader data
    else if 4 < header.version ∧ s.numExtraSectorsRead < s.numSectors then
      s.onExtraSector s.numSectors data
    else if s.numPlayersRead < header.numPlayers then s.onPlayer header.numPlayers data
    else if s.numPlayerStatusMessagesRead < header.numPlayers then
      s.onPlayerStatusMessage header.numPlayers data
    else if s.numUnitDataRead < 1 then s.onUnitData data
    else s.onPacket header.version data

def takeByte (s : DemoParser) (b : Byte) : Except Failure DemoParser :=
  match s.recordReader.takeByte b with
  | (.ok none, recordReader) => .ok { s with recordReader }
  | (.ok (some data), recordReader) => next { s with recordReader } data
  | (.error e, _) => .error e

section records

variable {s s' : DemoParser} {data : Bytes}

theorem onHeader_ok (h : s.onHeader data = .ok s') :
    ∃ header, s' = { s.handle (.header header) with header := some header } := by
  simp only [onHeader, bind, Except.bind, pure, Except.pure] at h
  split at h
  · cases h
  · cases h
    exact ⟨_, rfl⟩

theorem onExtraHeader_ok (h : s.onExtraHeader data = .ok s') :
    ∃ eh, s' = { s with extraHeader := some eh } := by
  simp only [onExtraHeader, bind, Except.bind, pure, Except.pure] at h
  split at h
  · cases h
  · cases h
    exact ⟨_, rfl⟩

theorem onExtraSector_ok {numSectors : ℕ} (h : s.onExtraSector numSectors data = .ok s') :
    ∃ es, s' = { s.handle (.extraSector es s.numExtraSectorsRead numSectors) with
      numExtraSectorsRead := s.numExtraSectorsRead + 1 } := by
  simp only [onExtraSector, bind, Except.bind, pure, Except.pure] at h
  split at h
  · cases h
  · cases h
    exact ⟨_, rfl⟩

theorem onPlayer_ok {numPlayers : ℕ} (h : s.onPlayer numPlayers data = .ok s') :
    ∃ p, s' = { s.handle (.player p s.numPlayersRead numPlayers) with
      numPlayersRead := s.numPlayersRead + 1 } := by
  simp only [onPlayer, bind, Except.bind, pure, Except.pure] at h
  split at h
  · cases h
  · cases h
    exact ⟨_, rfl⟩

theorem onPlayerStatusMessage_ok {numPlayers : ℕ}
    (h : s.onPlayerStatusMessage numPlayers data = .ok s') :
    ∃ msg dplayid, s' =
      { s.handle (.playerStatusMessage msg dplayid s.numPlayerStatusMessagesRead numPlayers) with
        numPlayerStatusMessagesRead := s.numPlayerStatusMessagesRead + 1 } := by
  simp only [onPlayerStatusMessage, bind, Except.bind, pure, Except.pure] at h
  split at h
  · cases h
  · split at h
    · cases h
    · cases h
      exact ⟨_, _, rfl⟩

theorem onUnitData_ok (h : s.onUnitData data = .ok s') :
    ∃ ud, s' = { s.handle (.unitData ud) with numUnitDataRead := s.numUnitDataRead + 1 } := by
  simp only [onUnitData, bind, Except.bind, pure, Except.pure] at h
  split at h
  · cases h
  · cases h
    exact ⟨_, rfl⟩

theorem onPacket_ok {version : ℕ} (h : s.onPacket version data = .ok s') :
    ∃ p unpacked, s' = { s.handle (.packet p unpacked s.numPacketsRead) with
      numPacketsRead := unsigned (s.numPacketsRead + 1) } := by
  simp only [onPacket, bind, Except.bind, pure, Except.pure] at h
  split at h
  · cases h
  · split at h
    · cases h
    · cases h
      exact ⟨_, _, rfl⟩

/-- A record is handled by at most one call and leaves the record reader alone. -/
theorem next_ok (h : s.next data = .ok s') :
    s'.recordReader = s.recordReader ∧ ∃ cs, s'.handled = s.handled ++ cs ∧ cs.length ≤ 1 := by
  unfold next at h
  split at h
  · obtain ⟨header, rfl⟩ := onHeader_ok h
    exact ⟨rfl, _, rfl, le_rfl⟩
  · repeat' split at h
    · obtain ⟨eh, rfl⟩ := onExtraHeader_ok h
      exact ⟨rfl, [], (List.append_nil _).symm, Nat.zero_le _⟩
    · obtain ⟨es, rfl⟩ := onExtraSector_ok h
      exact ⟨rfl, _, rfl, le_rfl⟩
    · obtain ⟨p, rfl⟩ := onPlayer_ok h
      exact ⟨rfl, _, rfl, le_rfl⟩
    · obtain ⟨msg, dplayid, rfl⟩ := onPlayerStatusMessage_ok h
      exact ⟨rfl, _, rfl, le_rfl⟩
    · obtain ⟨ud, rfl⟩ := onUnitData_ok h
      exact ⟨rfl, _, rfl, le_rfl⟩
    · obtain ⟨p, unpacked, rfl⟩ := onPacket_ok h
      exact ⟨rfl, _, rfl, le_rfl⟩

end records

theorem takeByte_ok {s s' : DemoParser} {b : Byte} (h : s.takeByte b = .ok s') :
    s'.recordReader.Valid ∧ ∃ cs, s'.handled = s.handled ++ cs ∧ cs.length ≤ 1 := by
  unfold takeByte at h
  split at h
  · rename_i htake
    cases h
    exact ⟨RecordReader.valid_takeByte htake, [], (List.append_nil _).symm, Nat.zero_le _⟩
  · rename_i htake
    obtain ⟨hr, hcs⟩ := next_ok h
    rw [hr]
    exact ⟨RecordReader.valid_takeByte htake, hcs⟩
  · cases h

theorem feed_handled {s s' : DemoParser} {l : Bytes} (h : feed takeByte s l = .ok s') :
    ∃ cs, s'.handled = s.handled ++ cs ∧ cs.length ≤ l.length := by
  induction l generalizing s with
  | nil =>
    cases h
    exact ⟨[], (List.append_nil _).symm, le_rfl⟩
  | cons b l ih =>
    obtain ⟨s1, hb, hl⟩ := feed_prefix (l := [b]) h
    rw [feed_singleton] at hb
    obtain ⟨-, cs, hcs, hlen⟩ := takeByte_ok hb
    obtain ⟨cs', hcs', hlen'⟩ := ih hl
    refine ⟨cs ++ cs', by rw [hcs', hcs, List.append_assoc], ?_⟩
    rw [List.length_append, List.length_cons]
    omega

/-- What `load` makes of the outcome of the record reader. -/
def afterRead (f : DemoParser → Bytes → Except Failure DemoParser) (s : DemoParser) :
    Except Stop Bytes × RecordReader × Bytes → Except Stop Unit × DemoParser × Bytes
  | (.ok data, recordReader, is) =>
    match f { s with recordReader } data with
    | .ok s => (.ok (), s, is)
    | .error e => (.error (.failed e), { s with recordReader }, is)
  | (.error e, recordReader, is) => (.error e, { s with recordReader }, is)

theorem load_eq (f : DemoParser → Bytes → Except Failure DemoParser) (s : DemoParser) (is : Bytes) :
    load f s is = afterRead f s (RecordReader.read s.recordReader is) := by
  show Reader.bind _ _ s is = _
  simp only [Reader.bind, Reader.focus]
  obtain ⟨out, hout⟩ : ∃ out, RecordReader.read s.recordReader is = out := ⟨_, rfl⟩
  rw [hout]
  obtain ⟨x, r, is'⟩ := out
  cases x <;> rfl

section load

variable {f : DemoParser → Bytes → Except Failure DemoParser} {P Q : DemoParser → Prop}
  (hreader : ∀ s r, P s → P { s with recordReader := r })
  (hnext : ∀ s data, P s → s.next data = f s data)
  (hQ : ∀ s data s', P s → f s data = .ok s' → Q s')
include hreader hnext hQ

theorem outcome_afterRead {r : RecordReader} {is : Bytes}
    {out : Except Stop Bytes × RecordReader × Bytes} (h : r.Reads is out) {s : DemoParser}
    (hs : s.recordReader = r) (hP : P s) : Outcome takeByte .dataNotReady Q s is (afterRead f s out) := by
  induction h generalizing s with
  | wait =>
    subst hs
    exact .wait rfl
  | @next r r' b is out htake hrest ih =>
    -- a byte before the last one of a record only moves the record reader
    have hb : s.takeByte b = .ok { s with recordReader := r' } := by
      rw [takeByte, hs, htake]
    have h := ih (s := { s with recordReader := r' }) rfl (hreader s r' hP)
    have heq : afterRead f { s with recordReader := r' } out = afterRead f s out := by
      obtain ⟨x, r2, is'⟩ := out
      cases x <;> rfl
    rw [heq] at h
    exact h.cons hb
  | @done r r' b is data htake =>
    have hP' := hreader s r' hP
    have hb : s.takeByte b = f { s with recordReader := r' } data := by
      rw [takeByte, hs, htake]
      exact hnext _ _ hP'
    simp only [afterRead]
    cases hf : f { s with recordReader := r' } data with
    | ok s' => exact .done (l := [b]) rfl (by rw [feed_singleton, hb, hf]) (hQ _ _ _ hP' hf)
    | error e => exact .fail (l := [b]) rfl (by rw [feed_singleton, hb, hf]) (by simp)
  | @fail r r' b is e htake =>
    refine .fail (y := e) (l := [b]) rfl ?_ (by simp)
    rw [feed_singleton, takeByte, hs, htake]

/-- Loading a record is taking in the bytes of it that are missing. -/
theorem steps_load :
    Steps takeByte .dataNotReady (fun s => P s ∧ s.recordReader.Valid) Q (load f) := by
  intro s is hs
  rw [load_eq]
  exact outcome_afterRead hreader hnext hQ (RecordReader.reads_read hs.2 is) rfl hs.1

end load

/-! ### The parts of `doParse` -/

/-- `Steps` for readers of the parser. -/
def Parses (P Q : DemoParser → Prop) (r : Reader Stop Byte DemoParser Unit) : Prop :=
  Steps takeByte .dataNotReady (fun s => P s ∧ s.recordReader.Valid)
    (fun s => Q s ∧ s.recordReader.Valid) r

theorem Parses.bind {P Q R : DemoParser → Prop} {r : Reader Stop Byte DemoParser Unit}
    {k : Unit → Reader Stop Byte DemoParser Unit} (hr : Parses P Q r) (hk : Parses Q R (k ())) :
    Parses P R (r >>= k) :=
  Steps.bind hr (fun _ => hk)

theorem Parses.ofState {P Q : DemoParser → Prop} {r : DemoParser → Reader Stop Byte DemoParser Unit}
    (h : ∀ s, P s → Parses (· = s) Q (r s)) : Parses P Q (fun s is => r s s is) :=
  fun s is hs => h s hs.1 s is ⟨rfl, hs.2⟩

theorem Parses.mono {P P' Q Q' : DemoParser → Prop} {r : Reader Stop Byte DemoParser Unit}
    (hr : Parses P Q r) (hP : ∀ s, P' s → P s) (hQ : ∀ s, Q s → Q' s) : Parses P' Q' r :=
  fun s is hs => (hr s is ⟨hP s hs.1, hs.2⟩).mono (fun s' hs' => ⟨hQ s' hs'.1, hs'.2⟩)

theorem parses_pure {P Q : DemoParser → Prop} (h : ∀ s, P s → Q s) : Parses P Q (pure ()) :=
  Steps.pure (fun s hs => ⟨h s hs.1, hs.2⟩) ()

theorem parses_load {f : DemoParser → Bytes → Except Failure DemoParser} {P Q : DemoParser → Prop}
    (hreader : ∀ s r, P s → P { s with recordReader := r })
    (hnext : ∀ s data, P s → s.next data = f s data)
    (hQ : ∀ s data s', P s → f s data = .ok s' → Q s') : Parses P Q (load f) := by
  have hkeep := (steps_load hreader hnext hQ).keeps (R := fun s => s.recordReader.Valid)
    (fun s b s' _ hb => (takeByte_ok hb).1)
  exact fun s is hs => hkeep s is ⟨hs, hs.2⟩

/-- A `for` loop over the records of one kind: `L` says how many there are to come. -/
theorem parses_loop {f : DemoParser → Bytes → Except Failure DemoParser} {B : DemoParser → Prop}
    {L : DemoParser → ℕ}
    (hreader : ∀ s r, B s → B { s with recordReader := r } ∧ L { s with recordReader := r } = L s)
    (hnext : ∀ s data, B s → 0 < L s → s.next data = f s data)
    (hround : ∀ s data s', B s → f s data = .ok s' → B s' ∧ L s' = L s - 1) (n : ℕ) :
    Parses (fun s => B s ∧ L s = n) (fun s => B s ∧ L s = 0) (loop f n) := by
  induction n with
  | zero => exact parses_pure (fun s hs => hs)
  | succ n ih =>
    have hload : Parses (fun s => B s ∧ L s = n + 1) (fun s => B s ∧ L s = n) (load f) := by
      apply parses_load
      · intro s r hs
        obtain ⟨hB, hleft⟩ := hreader s r hs.1
        exact ⟨hB, hleft.trans hs.2⟩
      · exact fun s data hs => hnext s data hs.1 (by omega)
      · intro s data s' hs hf
        obtain ⟨hB, hleft⟩ := hround s data s' hs.1 hf
        exact ⟨hB, by omega⟩
    exact hload.bind ih

theorem Parses.rounds {f : DemoParser → Bytes → Except Failure DemoParser} {B : DemoParser → Prop}
    {L : DemoParser → ℕ}
    (h : ∀ n, Parses (fun s => B s ∧ L s = n) (fun s => B s ∧ L s = 0) (loop f n)) :
    Parses B (fun s => B s ∧ L s = 0) (fun s is => loop f (L s) s is) :=
  fun s is hs => h (L s) s is ⟨⟨hs.1, rfl⟩, hs.2⟩

def Callback.isPacket : Callback → Bool
  | .packet _ _ _ => true
  | _ => false

/-- How many packets have been handled. -/
def packets (s : DemoParser) : ℕ := s.handled.countP Callback.isPacket

theorem packets_handle (s : DemoParser) (c : Callback) :
    (s.handle c).packets = s.packets + if Callback.isPacket c then 1 else 0 := by
  simp [packets, handle, List.countP_append, List.countP_singleton]

/-- The header is there; `k` packets have been handled. -/
def AtExtra (header : Header) (k : ℕ) (s : DemoParser) : Prop :=
  s.header = some header ∧ s.packets = k

def AtPlayers (header : Header) (k : ℕ) (s : DemoParser) : Prop :=
  AtExtra header k s ∧ ¬ (4 < header.version ∧ s.extraHeader.isNone) ∧
    ¬ (4 < header.version ∧ s.numExtraSectorsRead < s.numSectors)

def AtStatus (header : Header) (k : ℕ) (s : DemoParser) : Prop :=
  AtPlayers header k s ∧ ¬ s.numPlayersRead < header.numPlayers

def AtUnitData (header : Header) (k : ℕ) (s : DemoParser) : Prop :=
  AtStatus header k s ∧ ¬ s.numPlayerStatusMessagesRead < header.numPlayers

def AtPackets (header : Header) (k : ℕ) (s : DemoParser) : Prop :=
  AtUnitData header k s ∧ ¬ s.numUnitDataRead < 1

variable {header : Header} {k : ℕ}

theorem AtPackets.next {s : DemoParser} (h : AtPackets header k s) (data : Bytes) :
    s.next data = s.onPacket header.version data := by
  obtain ⟨⟨⟨⟨⟨hh, -⟩, h1, h2⟩, h3⟩, h4⟩, h5⟩ := h
  simp only [DemoParser.next, hh, if_neg h1, if_neg h2, if_neg h3, if_neg h4, if_neg h5]

theorem AtPackets.onPacket {s s' : DemoParser} (h : AtPackets header k s) {version : ℕ} {data : Bytes}
    (hp : s.onPacket version data = .ok s') : AtPackets header (k + 1) s' := by
  obtain ⟨⟨⟨⟨⟨hh, hk⟩, h1, h2⟩, h3⟩, h4⟩, h5⟩ := h
  obtain ⟨p, unpacked, rfl⟩ := onPacket_ok hp
  refine ⟨⟨⟨⟨⟨hh, ?_⟩, h1, h2⟩, h3⟩, h4⟩, h5⟩
  have := packets_handle s (.packet p unpacked s.numPacketsRead)
  simp only [Callback.isPacket, if_true, hk] at this
  exact this

theorem parses_packets (n : ℕ) :
    Parses (AtPackets header k) (AtPackets header (k + n)) (loop (onPacket header.version) n) := by
  induction n generalizing k with
  | zero => exact parses_pure (fun s hs => hs)
  | succ n ih =>
    have hload : Parses (AtPackets header k) (AtPackets header (k + 1))
        (load (onPacket header.version)) :=
      parses_load (fun s r h => h) (fun s data h => h.next data) (fun s data s' h hp => h.onPacket hp)
    rw [show k + (n + 1) = k + 1 + n by omega]
    exact hload.bind ih

theorem parses_unitData :
    Parses (AtUnitData header k) (AtPackets header k)
      (fun s is => loop onUnitData (1 - s.numUnitDataRead) s is) := by
  have hloop := parses_loop (f := onUnitData) (B := AtUnitData header k)
    (L := fun s => 1 - s.numUnitDataRead) (fun s r hs => ⟨hs, rfl⟩) ?_ ?_
  · exact (Parses.rounds hloop).mono (fun s hs => hs) (fun s hs => ⟨hs.1, by have := hs.2; omega⟩)
  · intro s data h hn
    obtain ⟨⟨⟨⟨hh, -⟩, h1, h2⟩, h3⟩, h4⟩ := h
    simp only [DemoParser.next, hh, if_neg h1, if_neg h2, if_neg h3, if_neg h4,
      if_pos (by omega : s.numUnitDataRead < 1)]
  · intro s data s' h hp
    obtain ⟨⟨⟨⟨hh, hk⟩, h1, h2⟩, h3⟩, h4⟩ := h
    obtain ⟨ud, rfl⟩ := onUnitData_ok hp
    refine ⟨⟨⟨⟨⟨hh, ?_⟩, h1, h2⟩, h3⟩, h4⟩, by simp only []; omega⟩
    exact (packets_handle s (.unitData ud)).trans hk

theorem parses_playerStatusMessages :
    Parses (AtStatus header k) (AtUnitData header k)
      (fun s is => loop (onPlayerStatusMessage header.numPlayers)
        (header.numPlayers - s.numPlayerStatusMessagesRead) s is) := by
  have hloop := parses_loop (f := onPlayerStatusMessage header.numPlayers) (B := AtStatus header k)
    (L := fun s => header.numPlayers - s.numPlayerStatusMessagesRead) (fun s r hs => ⟨hs, rfl⟩) ?_ ?_
  · exact (Parses.rounds hloop).mono (fun s hs => hs) (fun s hs => ⟨hs.1, by have := hs.2; omega⟩)
  · intro s data h hn
    obtain ⟨⟨⟨hh, -⟩, h1, h2⟩, h3⟩ := h
    simp only [DemoParser.next, hh, if_neg h1, if_neg h2, if_neg h3,
      if_pos (by omega : s.numPlayerStatusMessagesRead < header.numPlayers)]
  · intro s data s' h hp
    obtain ⟨⟨⟨hh, hk⟩, h1, h2⟩, h3⟩ := h
    obtain ⟨msg, dplayid, rfl⟩ := onPlayerStatusMessage_ok hp
    refine ⟨⟨⟨⟨hh, ?_⟩, h1, h2⟩, h3⟩, by simp only []; omega⟩
    exact (packets_handle s (.playerStatusMessage msg dplayid _ _)).trans hk

theorem parses_players :
    Parses (AtPlayers header k) (AtStatus header k)
      (fun s is => loop (onPlayer header.numPlayers) (header.numPlayers - s.numPlayersRead) s is) := by
  have hloop := parses_loop (f := onPlayer header.numPlayers) (B := AtPlayers header k)
    (L := fun s => header.numPlayers - s.numPlayersRead) (fun s r hs => ⟨hs, rfl⟩) ?_ ?_
  · exact (Parses.rounds hloop).mono (fun s hs => hs) (fun s hs => ⟨hs.1, by have := hs.2; omega⟩)
  · intro s data h hn
    obtain ⟨⟨hh, -⟩, h1, h2⟩ := h
    simp only [DemoParser.next, hh, if_neg h1, if_neg h2,
      if_pos (by omega : s.numPlayersRead < header.numPlayers)]
  · intro s data s' h hp
    obtain ⟨⟨hh, hk⟩, h1, h2⟩ := h
    obtain ⟨p, rfl⟩ := onPlayer_ok hp
    refine ⟨⟨⟨hh, ?_⟩, h1, h2⟩, by simp only []; omega⟩
    exact (packets_handle s (.player p _ _)).trans hk

theorem isNone_of_isSome {s : DemoParser} (h : s.extraHeader.isSome = true) :
    ¬ (4 < header.version ∧ s.extraHeader.isNone = true) := by
  cases he : s.extraHeader with
  | none => simp [he] at h
  | some eh => simp

theorem parses_extraSectors (hversion : 4 < header.version) :
    Parses (fun s => AtExtra header k s ∧ s.extraHeader.isSome) (AtPlayers header k)
      (fun s is => loop (onExtraSector s.numSectors) (s.numSectors - s.numExtraSectorsRead) s is) := by
  refine Parses.ofState (fun s0 hs0 => ?_)
  obtain ⟨total, htotal⟩ : ∃ total, s0.numSectors = total := ⟨_, rfl⟩
  rw [htotal]
  have hloop := parses_loop (f := onExtraSector total)
    (B := fun s => AtExtra header k s ∧ s.extraHeader.isSome ∧ s.numSectors = total)
    (L := fun s => total - s.numExtraSectorsRead) (fun s r hs => ⟨hs, rfl⟩) ?_ ?_
  · refine (hloop (total - s0.numExtraSectorsRead)).mono ?_ ?_
    · intro _ heq
      obtain rfl := heq
      exact ⟨⟨hs0.1, hs0.2, htotal⟩, rfl⟩
    · intro s h
      obtain ⟨⟨hs, heh, hnum⟩, hn⟩ := h
      exact ⟨hs, isNone_of_isSome heh, by omega⟩
  · intro s data h hn
    obtain ⟨⟨hh, -⟩, heh, hnum⟩ := h
    have h2 : 4 < header.version ∧ s.numExtraSectorsRead < total := ⟨hversion, by omega⟩
    simp only [DemoParser.next, hh, if_neg (isNone_of_isSome heh), hnum, if_pos h2]
  · intro s data s' h hp
    obtain ⟨⟨hh, hk⟩, heh, hnum⟩ := h
    obtain ⟨es, rfl⟩ := onExtraSector_ok hp
    refine ⟨⟨⟨hh, ?_⟩, heh, hnum⟩, by simp only []; omega⟩
    exact (packets_handle s (.extraSector es _ _)).trans hk

theorem parses_extra : Parses (AtExtra header k) (AtPlayers header k) (doExtra header) := by
  unfold doExtra
  split
  · rename_i hversion
    refine Parses.bind (Q := fun s => AtExtra header k s ∧ s.extraHeader.isSome) ?_
      (parses_extraSectors hversion)
    have hload : Parses (fun s => AtExtra header k s ∧ s.extraHeader.isNone)
        (fun s => AtExtra header k s ∧ s.extraHeader.isSome) (load onExtraHeader) := by
      refine parses_load (fun s r h => h) ?_ ?_
      · intro s data hx
        obtain ⟨⟨hh, -⟩, hnone⟩ := hx
        simp only [DemoParser.next, hh, if_pos (⟨hversion, hnone⟩ : _ ∧ _)]
      · intro s data s' hx hp
        obtain ⟨hs, -⟩ := hx
        obtain ⟨eh, rfl⟩ := onExtraHeader_ok hp
        exact ⟨hs, rfl⟩
    intro s is hs
    by_cases hnone : s.extraHeader.isNone = true
    · simp only [if_pos hnone]
      exact hload s is ⟨⟨hs.1, hnone⟩, hs.2⟩
    · simp only [if_neg hnone]
      refine .done (l := []) rfl rfl ⟨⟨hs.1, ?_⟩, hs.2⟩
      cases he : s.extraHeader with
      | none => simp [he] at hnone
      | some eh => rfl
  · rename_i hversion
    refine parses_pure (fun s hs => ⟨hs, ?_, ?_⟩)
    · exact fun h => hversion h.1
    · exact fun h => hversion h.1

/-- The loop over the packets: with `maxPaksToLoad = 0` it ends by an exception. -/
theorem parses_doPackets (maxPaksToLoad : ℕ) :
    Parses (AtPackets header k) (fun s => maxPaksToLoad ≠ 0 ∧ AtPackets header (k + maxPaksToLoad) s)
      (doPackets header maxPaksToLoad) := by
  intro s is hs
  unfold doPackets
  by_cases hmax : maxPaksToLoad = 0
  · rw [if_pos hmax]
    have h := parses_packets (is.length + 1) s is hs
    generalize loop (onPacket header.version) (is.length + 1) s is = out at h ⊢
    cases h with
    | @done a s' l is' his hl hQ =>
      -- more packets than bytes
      obtain ⟨cs, hcs, hlen⟩ := feed_handled hl
      have hk : s.packets = k := hs.1.1.1.1.1.2
      have hk' : s'.packets = k + (is.length + 1) := hQ.1.1.1.1.1.2
      have hle : cs.countP Callback.isPacket ≤ cs.length := List.countP_le_length
      have hsplit := congrArg List.length his
      simp only [packets, hcs, List.countP_append] at hk hk'
      rw [List.length_append] at hsplit
      omega
    | wait hl => exact .wait hl
    | fail his hl hx => exact .fail his hl hx
  · rw [if_neg hmax]
    exact (parses_packets maxPaksToLoad s is hs).mono (fun s' h => ⟨⟨hmax, h.1⟩, h.2⟩)

theorem parses_body (maxPaksToLoad : ℕ) :
    Parses (AtExtra header k) (fun s => maxPaksToLoad ≠ 0 ∧ AtPackets header (k + maxPaksToLoad) s)
      (doBody maxPaksToLoad header) :=
  parses_extra.bind (parses_players.bind (parses_playerStatusMessages.bind
    (parses_unitData.bind (parses_doPackets maxPaksToLoad))))

theorem parses_header :
    Parses (fun s => s.packets = k) (fun s => ∃ header, AtExtra header k s) doHeader := by
  have hload : Parses (fun s => s.packets = k ∧ s.header = none) (fun s => ∃ header, AtExtra header k s)
      (load onHeader) := by
    refine parses_load (fun s r h => h) ?_ ?_
    · intro s data hx
      obtain ⟨-, hnone⟩ := hx
      simp only [DemoParser.next, hnone]
    · intro s data s' hx hp
      obtain ⟨hk, -⟩ := hx
      obtain ⟨header, rfl⟩ := onHeader_ok hp
      exact ⟨header, rfl, (packets_handle s (.header header)).trans hk⟩
  intro s is hs
  unfold doHeader
  cases hh : s.header with
  | none => exact hload s is ⟨⟨hs.1, hh⟩, hs.2⟩
  | some header => exact .done (l := []) rfl rfl ⟨⟨header, hh, hs.1⟩, hs.2⟩

/-- `doParse` takes in bytes; if it does not wait for more it has loaded the packets asked for. -/
theorem parses_doParse (maxPaksToLoad : ℕ) :
    Parses (fun s => s.packets = k)
      (fun s => maxPaksToLoad ≠ 0 ∧ ∃ header, AtPackets header (k + maxPaksToLoad) s)
      (doParse maxPaksToLoad) := by
  refine parses_header.bind ?_
  intro s is hx
  obtain ⟨⟨header, hs⟩, hv⟩ := hx
  simp only [hs.1]
  exact (parses_body maxPaksToLoad s is ⟨hs, hv⟩).mono (fun s' h => ⟨⟨h.1.1, header, h.1.2⟩, h.2⟩)

theorem AtPackets.takeByte {s s' : DemoParser} {b : Byte} (h : AtPackets header k s)
    (hb : s.takeByte b = .ok s') :
    AtPackets header k s' ∧ s'.handled = s.handled ∨
      AtPackets header (k + 1) s' ∧ ∃ c, s'.handled = s.handled ++ [c] ∧ Callback.isPacket c = true := by
  unfold DemoParser.takeByte at hb
  split at hb
  · cases hb
    exact Or.inl ⟨h, rfl⟩
  · rename_i r htake
    have h' : AtPackets header k { s with recordReader := r } := h
    rw [h'.next] at hb
    refine Or.inr ⟨h'.onPacket hb, ?_⟩
    obtain ⟨p, unpacked, rfl⟩ := onPacket_ok hb
    exact ⟨_, rfl, rfl⟩
  · cases hb

theorem AtPackets.feed {s s' : DemoParser} {l : Bytes} (h : AtPackets header k s)
    (hl : Resumable.feed DemoParser.takeByte s l = .ok s') :
    ∃ cs, s'.handled = s.handled ++ cs ∧ ∀ c ∈ cs, Callback.isPacket c = true := by
  induction l generalizing s k with
  | nil =>
    cases hl
    exact ⟨[], (List.append_nil _).symm, by simp⟩
  | cons b l ih =>
    obtain ⟨s1, hb, hl'⟩ := feed_prefix (l := [b]) hl
    rw [feed_singleton] at hb
    rcases h.takeByte hb with ⟨h1, heq⟩ | ⟨h1, c, hc, hpacket⟩
    · obtain ⟨cs, hcs, hall⟩ := ih h1 hl'
      exact ⟨cs, by rw [hcs, heq], hall⟩
    · obtain ⟨cs, hcs, hall⟩ := ih h1 hl'
      refine ⟨c :: cs, by rw [hcs, hc, List.append_assoc]; rfl, ?_⟩
      intro d hd
      rcases List.mem_cons.mp hd with rfl | hd
      · exact hpacket
      · exact hall d hd

end DemoParser

/-! ### Schedules -/

namespace Follower
open DemoParser

def Event.bytes : Event → Bytes
  | .grow bytes => bytes
  | .parse _ => []

/-- How much of the file there is after a schedule. -/
def available (es : List Event) : Bytes := es.flatMap Event.bytes

/-- What a call of `parse` does: it takes in some of the unread bytes, and if it leaves any it
has loaded the packets asked for. -/
theorem parse_cases {f : Follower} (hv : f.parser.recordReader.Valid) (maxPaksToLoad : ℕ) :
    (∃ x f' l, f.parse maxPaksToLoad = .ok (x, f') ∧ f.unread = l ++ f'.unread ∧
      feed takeByte f.parser l = .ok f'.parser ∧ (f'.unread = [] ∨ maxPaksToLoad ≠ 0 ∧
        ∃ header, AtPackets header (f.parser.packets + maxPaksToLoad) f'.parser)) ∨
    ∃ e e' l l', f.parse maxPaksToLoad = .error e ∧ f.unread = l ++ l' ∧
      feed takeByte f.parser l = .error e' := by
  have h := parses_doParse (k := f.parser.packets) maxPaksToLoad f.parser f.unread ⟨rfl, hv⟩
  unfold parse
  generalize doParse maxPaksToLoad f.parser f.unread = out at h ⊢
  cases h with
  | @done u s l is' his hl hQ =>
    simp only []
    split
    · exact Or.inl ⟨_, _, l, rfl, his, hl, Or.inr hQ.1⟩
    · exact Or.inl ⟨_, _, l, rfl, his, hl, Or.inr hQ.1⟩
  | @wait s hl =>
    simp only []
    split
    · exact Or.inl ⟨_, _, f.unread, rfl, (List.append_nil _).symm, hl, Or.inl rfl⟩
    · exact Or.inl ⟨_, _, f.unread, rfl, (List.append_nil _).symm, hl, Or.inl rfl⟩
  | @fail x y s l l' is' his hl hx =>
    cases x with
    | dataNotReady => exact absurd rfl hx
    | failed e => exact Or.inr ⟨e, y, l, l', rfl, his, hl⟩

/-- The follower has taken in the part of `got` that is not unread. -/
def Follows (f : Follower) (got : Bytes) : Prop :=
  ∃ l, got = l ++ f.unread ∧ feed takeByte .new l = .ok f.parser

theorem Follows.valid {f : Follower} {got : Bytes} (h : Follows f got) :
    f.parser.recordReader.Valid := by
  obtain ⟨l, -, hl⟩ := h
  refine feed_invariant (R := fun s : DemoParser => s.recordReader.Valid) ?_ hl ?_
  · exact fun s b s' _ hb => (takeByte_ok hb).1
  · intro hs
    cases hs

theorem run_append (f : Follower) (es es' : List Event) :
    f.run (es ++ es') = (f.run es).bind (·.run es') := by
  simp only [run, List.foldlM_append]
  rfl

section schedules

variable {S : Bytes} {s : DemoParser} (hS : feed takeByte .new S = .ok s)
include hS

theorem Follows.parse {f : Follower} {got : Bytes} (h : Follows f got) (hgot : got <+: S)
    (maxPaksToLoad : ℕ) :
    ∃ f', f.step (.parse maxPaksToLoad) = .ok f' ∧ Follows f' got ∧ (f.unread = [] → f'.unread = []) ∧
      (f'.unread = [] ∨ maxPaksToLoad ≠ 0 ∧
        ∃ header, AtPackets header (f.parser.packets + maxPaksToLoad) f'.parser) := by
  have hv := h.valid
  obtain ⟨l, hl, hfeed⟩ := h
  rcases parse_cases hv maxPaksToLoad with
    ⟨x, f', l1, hparse, hunread, hfeed1, hend⟩ | ⟨e, e', l1, l2, -, hunread, hfeed1⟩
  · refine ⟨f', by simp [step, hparse, Except.map], ⟨l ++ l1, ?_, ?_⟩, ?_, hend⟩
    · rw [hl, hunread, List.append_assoc]
    · rw [feed_append_ok hfeed, hfeed1]
    · intro hnil
      rw [hunread] at hnil
      exact (List.append_eq_nil_iff.mp hnil).2
  · -- a failure here would be one of the parser of the whole file
    obtain ⟨later, hlater⟩ := hgot
    have hsplit : S = (l ++ l1) ++ (l2 ++ later) := by
      rw [← hlater, hl, hunread]
      simp only [List.append_assoc]
    rw [hsplit] at hS
    obtain ⟨s1, hs1, -⟩ := feed_prefix hS
    rw [feed_append_ok hfeed, hfeed1] at hs1
    cases hs1

theorem run_follows (n : ℤ) (es : List Event) (hes : available es <+: S) :
    ∃ f, (new n).run es = .ok f ∧ Follows f (available es) := by
  induction es using List.reverseRecOn with
  | nil => exact ⟨new n, rfl, [], rfl, rfl⟩
  | append_singleton es e ih =>
    have havail : available (es ++ [e]) = available es ++ Event.bytes e := by
      simp [available, List.flatMap_append]
    rw [havail] at hes ⊢
    obtain ⟨f, hrun, hf⟩ := ih ((List.prefix_append _ _).trans hes)
    have hstep : (new n).run (es ++ [e]) = f.step e := by
      rw [run_append, hrun]
      show (f.step e).bind _ = _
      cases f.step e <;> rfl
    rw [hstep]
    cases e with
    | grow bytes =>
      obtain ⟨l, hl, hfeed⟩ := hf
      exact ⟨_, rfl, l, by rw [hl, List.append_assoc]; rfl, hfeed⟩
    | parse maxPaksToLoad =>
      rw [Event.bytes, List.append_nil] at hes ⊢
      obtain ⟨f', hparse, hf', -, -⟩ := hf.parse hS hes maxPaksToLoad
      exact ⟨f', hparse, hf'⟩

/-- Calls of `parse` when all of the file is there. -/
theorem run_parses {f : Follower} (hf : Follows f S) {ms : List ℕ} (hms : ms ≠ []) :
    ∃ f', f.run (ms.map .parse) = .ok f' ∧ Follows f' S ∧ (f.unread = [] → f'.unread = []) ∧
      (f'.unread = [] ∨ 0 ∉ ms ∧
      ∃ header, AtPackets header (f.parser.packets + ms.sum) f'.parser) := by
  induction ms generalizing f with
  | nil => exact absurd rfl hms
  | cons m ms ih =>
    obtain ⟨f1, hstep, hf1, hkeep, hend⟩ := hf.parse hS List.prefix_rfl m
    have hcons : f.run ((m :: ms).map .parse) = f1.run (ms.map .parse) := by
      show (f.step (.parse m)).bind _ = _
      rw [hstep]
      rfl
    rw [hcons]
    cases ms with
    | nil =>
      refine ⟨f1, rfl, hf1, hkeep, hend.imp_right ?_⟩
      intro h
      obtain ⟨hm, header, hat⟩ := h
      exact ⟨by simpa using hm.symm, header, by simpa using hat⟩
    | cons m' ms =>
      obtain ⟨f', hrun, hf', hkeep', hend'⟩ := ih hf1 (by simp)
      refine ⟨f', hrun, hf', fun hnil => hkeep' (hkeep hnil), ?_⟩
      rcases hend with hnil | ⟨hm, header, hat⟩
      · exact Or.inl (hkeep' hnil)
      · refine hend'.imp_right ?_
        intro h
        obtain ⟨h0, header', hat'⟩ := h
        refine ⟨by simp only [List.mem_cons, not_or] at h0 ⊢; exact ⟨Ne.symm hm, h0⟩, header', ?_⟩
        have hk : f1.parser.packets = f.parser.packets + m := hat.1.1.1.1.2
        rw [hk] at hat'
        rw [List.sum_cons, ← Nat.add_assoc]
        exact hat'

end schedules

theorem feed_oneShot {S : Bytes} {n : ℤ} {one : Follower}
    (hone : (new n).run [.grow S, .parse 0] = .ok one) : feed takeByte .new S = .ok one.parser := by
  have hv : (⟨.new, n, S⟩ : Follower).parser.recordReader.Valid := by
    intro hs
    cases hs
  have hrun : (new n).run [.grow S, .parse 0] = (parse ⟨.new, n, S⟩ 0).map (·.2) := by
    show (step ⟨.new, n, S⟩ (.parse 0)).bind _ = _
    rw [step]
    cases parse ⟨.new, n, S⟩ 0 <;> rfl
  rw [hrun] at hone
  rcases parse_cases hv 0 with ⟨x, f', l, hparse, hunread, hfeed, hend⟩ | ⟨e, e', l, l', hparse, -, -⟩
  · rw [hparse] at hone
    cases hone
    have hnil : f'.unread = [] := hend.resolve_right (fun h => h.1 rfl)
    have hall : S = l := by simpa [hnil] using hunread
    rw [hall]
    exact hfeed
  · rw [hparse] at hone
    cases hone

/-- Following a growing file is parsing the finished one. -/
theorem following_equals_oneShot {S : Bytes} {m n : ℤ} {one : Follower}
    (hone : (new m).run [.grow S, .parse 0] = .ok one) :
    (∀ es, available es <+: S →
      ∃ f, (new n).run es = .ok f ∧ f.parser.handled <+: one.parser.handled) ∧
    ∀ es ms f, available es = S → (new n).run es = .ok f → ms ≠ [] →
      (0 ∈ ms ∨ one.parser.packets ≤ f.parser.packets + ms.sum) →
      ∃ f', (new n).run (es ++ ms.map .parse) = .ok f' ∧ f'.parser.handled = one.parser.handled := by
  have hS := feed_oneShot hone
  constructor
  · intro es hes
    obtain ⟨f, hrun, l, hl, hfeed⟩ := run_follows hS n es hes
    obtain ⟨later, hlater⟩ := hes
    refine ⟨f, hrun, ?_⟩
    rw [← hlater, hl, List.append_assoc, feed_append_ok hfeed] at hS
    obtain ⟨cs, hcs, -⟩ := feed_handled hS
    rw [hcs]
    exact List.prefix_append _ _
  · intro es ms f hes hrun hms henough
    obtain ⟨f0, hrun0, hf⟩ := run_follows hS n es (by rw [hes])
    rw [hrun] at hrun0
    cases hrun0
    rw [hes] at hf
    obtain ⟨f', hrun', ⟨l, hl, hfeed⟩, -, hend⟩ := run_parses hS hf hms
    refine ⟨f', by rw [run_append, hrun]; exact hrun', ?_⟩
    rw [hl, feed_append_ok hfeed] at hS
    rcases hend with hnil | ⟨h0, header, hat⟩
    · rw [hnil, feed_nil] at hS
      rw [Except.ok.inj hS]
    · -- what is left can only be packets, and as many as there are have been handled
      obtain ⟨cs, hcs, hall⟩ := hat.feed hS
      have hcount : cs.countP Callback.isPacket = cs.length := List.countP_eq_length.mpr hall
      have hk : f'.parser.packets = f.parser.packets + ms.sum := hat.1.1.1.1.2
      have hle := henough.resolve_left h0
      rw [packets, hcs, List.countP_append, hcount, ← packets, hk] at hle
      have hempty : cs = [] := List.eq_nil_of_length_eq_zero (by omega)
      rw [hcs, hempty, List.append_nil]

/-- A version 3 file without players: header, unit data and two packets. -/
def smallDemo : Bytes :=
  [18, 0] ++ tadMagic ++ [3, 0, 0, 0xf4, 1, 0x6d, 0x61, 0x70] ++ [4, 0, 1, 2] ++
    [11, 0, 50, 0, 1, 3, 0, 0, 0, 0, 8] ++ [13, 0, 60, 0, 2, 3, 0, 0, 0, 0, 0x19, 1, 2]

theorem following_equals_oneShot_small :
    ∃ one f, (new 0).run [.grow smallDemo, .parse 0] = .ok one ∧
      (new 7).run ([.grow (smallDemo.take 21), .parse 0, .grow (smallDemo.drop 21)] ++
        [1, 0].map .parse) = .ok f ∧ f.parser.handled = one.parser.handled := by
  cases hone : (new 0).run [.grow smallDemo, .parse 0] with
  | error e =>
    have hok : ((new 0).run [.grow smallDemo, .parse 0]).toBool = true := by decide +kernel
    rw [hone] at hok
    cases hok
  | ok one =>
    obtain ⟨hpre, hall⟩ := following_equals_oneShot (n := 7) hone
    have hsplit : available [.grow (smallDemo.take 21), .parse 0, .grow (smallDemo.drop 21)] =
        smallDemo := by decide
    obtain ⟨f, hrun, -⟩ := hpre _ (by rw [hsplit])
    obtain ⟨f', hrun', hhandled⟩ := hall _ [1, 0] f hsplit hrun (by simp) (Or.inl (by simp))
    exact ⟨one, f', rfl, hrun', hhandled⟩

end Follower

end Gpgnet4TA.Tapacket
