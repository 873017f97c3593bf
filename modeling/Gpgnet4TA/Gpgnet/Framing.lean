import Gpgnet4TA.Gpgnet.GpgNetParse

/-!
# Commands arrive whole under any chunking

The parser is run from the start of a command on every call, so its state must be
determined by how many bytes of the command it has taken in. `At c p` is that state:
every reader has its share of the first `p` bytes of the command `c`. Each piece of
`getCommand` covers its field, and the pieces compose.
-/

namespace Gpgnet4TA.Gpgnet
open Gpgnet4TA.Lib Gpgnet4TA.Lib.Resumable

/-! ### One record reader -/

/-- The reader of the field `F` at offset `o`, after `p` bytes of the command. -/
structure Field (F : Bytes) (o p : ℕ) (r : RecordReader) : Prop where
  size : r.buffer.length = F.length
  progress : r.progress = min (p - o) F.length
  content : r.buffer.take r.progress = F.take r.progress

/-- The same for a field whose size is set only when it is read. -/
structure SizedField (F : Bytes) (o p : ℕ) (r : RecordReader) : Prop where
  size : 0 < r.progress → r.buffer.length = F.length
  progress : r.progress = min (p - o) F.length
  content : r.buffer.take r.progress = F.take r.progress

theorem Field.frame {F : Bytes} {a p p' : ℕ} {r : RecordReader} (h : Field F a p r) {o m : ℕ}
    (ho : o ≤ p) (hp : p ≤ p') (hm : p' ≤ max p m) (hout : a + F.length ≤ o ∨ m ≤ a) :
    Field F a p' r :=
  ⟨h.size, by rw [h.progress]; omega, h.content⟩

theorem SizedField.frame {F : Bytes} {a p p' : ℕ} {r : RecordReader} (h : SizedField F a p r)
    {o m : ℕ} (ho : o ≤ p) (hp : p ≤ p') (hm : p' ≤ max p m) (hout : a + F.length ≤ o ∨ m ≤ a) :
    SizedField F a p' r :=
  ⟨h.size, by rw [h.progress]; omega, h.content⟩

theorem SizedField.setSize {F : Bytes} {o p : ℕ} {r : RecordReader} (h : SizedField F o p r) :
    Field F o p (r.setSize F.length) := by
  refine ⟨?_, h.progress, ?_⟩
  · simp only [RecordReader.setSize, List.length_append, List.length_take, List.length_replicate]
    omega
  · rcases Nat.eq_zero_or_pos r.progress with h0 | h0
    · simp [RecordReader.setSize, h0]
    · have hlen := h.size h0
      have hsame : r.setSize F.length = r := by
        simp [RecordReader.setSize, hlen, List.take_of_length_le]
      rw [hsame]
      exact h.content

section reader

variable {E F : Bytes} {o : ℕ}

theorem expected_drop (hE : (E.drop o).take F.length = F) {p : ℕ} (ho : o ≤ p) :
    (E.drop p).take (o + F.length - p) = F.drop (p - o) := by
  have h := congrArg (List.drop (p - o)) hE
  have hp : o + (p - o) = p := by omega
  rw [List.drop_take, List.drop_drop, hp] at h
  rw [show o + F.length - p = F.length - (p - o) by omega]
  exact h

/-- Reading `n` more of the expected bytes. -/
theorem Field.readRawData {p : ℕ} {r : RecordReader} (h : Field F o p r)
    (ho : o ≤ p) {is : Bytes} (n : ℕ) (hn : n = min is.length (F.length - r.progress))
    (his : is.take n = (F.drop (p - o)).take n) (hlt : r.progress < F.length) :
    Field F o (p + n) (r.readRawData is).1 ∧ (r.readRawData is).2 = is.drop n := by
  have hprog := h.progress
  have hq : r.progress = p - o := by omega
  have hread : min is.length (r.buffer.length - r.progress) = n := by rw [h.size, hn]
  have hlen : (is.take n).length = n := by
    rw [List.length_take]
    omega
  have htake : (r.buffer.take r.progress).length = r.progress := by
    rw [List.length_take, h.size]
    omega
  have hpre : (r.buffer.take r.progress ++ is.take n).length = r.progress + n := by
    rw [List.length_append, hlen, htake]
  have heq : r.readRawData is = (⟨r.buffer.take r.progress ++ is.take n ++
      r.buffer.drop (r.progress + n), r.progress + n⟩, is.drop n) := by
    rw [RecordReader.readRawData, hread]
  rw [heq]
  refine ⟨⟨?_, ?_, ?_⟩, rfl⟩
  · rw [List.length_append, hpre, List.length_drop, h.size]
    omega
  · simp only []
    omega
  · simp only []
    rw [List.take_left' hpre, h.content, his, hq, List.take_add]

theorem covers_get (hE : (E.drop o).take F.length = F) :
    Covers (Field F o) .dataNotReady E o (o + F.length) RecordReader.get F where
  done := by
    intro p r is hF ho htake hlen
    rw [expected_drop hE ho] at htake
    have hprog := hF.progress
    by_cases hlt : r.progress < F.length
    · have hn : o + F.length - p = min is.length (F.length - r.progress) := by omega
      have his : is.take (o + F.length - p) = (F.drop (p - o)).take (o + F.length - p) := by
        rw [htake, List.take_of_length_le]
        rw [List.length_drop]
        omega
      obtain ⟨hF', hrest⟩ := hF.readRawData ho _ hn his hlt
      have hend : p + (o + F.length - p) = o + F.length := by omega
      rw [hend] at hF'
      have hfull : (r.readRawData is).1.progress = F.length := by
        rw [hF'.progress]
        omega
      have hbuf : (r.readRawData is).1.buffer = F := by
        have h := hF'.content
        rw [hfull, List.take_length, ← hF'.size, List.take_length] at h
        exact h
      refine ⟨(r.readRawData is).1, ?_, by rw [Nat.max_eq_right (by omega)]; exact hF'⟩
      simp only [RecordReader.get, hF.size, if_pos hlt, hfull, hbuf, if_true, hrest]
    · have hfull : r.progress = F.length := by omega
      have hbuf : r.buffer = F := by
        have h := hF.content
        rw [hfull, List.take_length, ← hF.size, List.take_length] at h
        exact h
      have hsize := hF.size
      have hzero : o + F.length - p = 0 := by omega
      refine ⟨r, ?_, by rw [Nat.max_eq_left (by omega)]; exact hF⟩
      rw [hzero, List.drop_zero]
      simp only [RecordReader.get, if_neg (by omega : ¬ r.progress < r.buffer.length),
        if_pos (by omega : r.progress = r.buffer.length)]
      rw [hbuf]
  wait := by
    intro p r is hF ho htake hlen
    have hprog := hF.progress
    have hlt : r.progress < F.length := by omega
    have hn : is.length = min is.length (F.length - r.progress) := by omega
    have his : is.take is.length = (F.drop (p - o)).take is.length := by
      rw [List.take_length, ← expected_drop hE ho, List.take_take, Nat.min_eq_left (by omega)]
      exact htake
    obtain ⟨hF', hrest⟩ := hF.readRawData ho _ hn his hlt
    have hnot : ¬ (r.readRawData is).1.progress = F.length := by
      rw [hF'.progress]
      omega
    refine ⟨(r.readRawData is).1, ?_, hF'⟩
    simp only [RecordReader.get, hF.size, if_pos hlt, hF'.size, if_neg hnot, hrest, List.drop_length]

theorem covers_getInt {v : ℕ} (hv : v < 2 ^ 32) (hE : (E.drop o).take 4 = leBytes 4 v) :
    Covers (Field (leBytes 4 v) o) .dataNotReady E o (o + 4) RecordReader.getInt v := by
  have hget := covers_get (F := leBytes 4 v) (o := o) (E := E) (by rw [length_leBytes]; exact hE)
  rw [length_leBytes] at hget
  have hval : leVal ((leBytes 4 v).take 4) = v := by
    rw [List.take_of_length_le (by simp), leVal_leBytes]
    exact Nat.mod_eq_of_lt (by simpa using hv)
  refine hget.bind ?_ le_rfl
  have hpure := Covers.pure (I := Field (leBytes 4 v) o) (e := Stop.dataNotReady) (E := E)
    (o := o + 4) (leVal ((leBytes 4 v).take 4))
  rw [hval] at hpure ⊢
  exact hpure

/-- `setSize` followed by `get`. -/
theorem covers_sized (hE : (E.drop o).take F.length = F) :
    Covers (SizedField F o) .dataNotReady E o (o + F.length)
      (do Reader.update (·.setSize F.length); RecordReader.get) F := by
  refine (covers_get hE).prepare (fun p r h _ => h.setSize) ?_
  exact fun p r h => ⟨fun _ => h.size, h.progress, h.content⟩

end reader

/-! ### Byte arrays and arguments -/

structure ArrayField (b : Bytes) (o p : ℕ) (r : ByteArrayRecordReader) : Prop where
  size : Field (leBytes 4 b.length) o p r.size
  data : SizedField b (o + 4) p r.data

theorem ArrayField.frame {b : Bytes} {a p p' : ℕ} {r : ByteArrayRecordReader}
    (h : ArrayField b a p r) {o m : ℕ} (ho : o ≤ p) (hp : p ≤ p') (hm : p' ≤ max p m)
    (hout : a + (4 + b.length) ≤ o ∨ m ≤ a) : ArrayField b a p' r := by
  refine ⟨h.size.frame ho hp hm ?_, h.data.frame ho hp hm ?_⟩
  · rw [length_leBytes]
    omega
  · omega

theorem covers_getByteArray {E b : Bytes} {o : ℕ} (hb : b.length ≤ MAX_RECORD_SIZE)
    (hE : (E.drop o).take (4 + b.length) = writeByteArray b) :
    Covers (ArrayField b o) .dataNotReady E o (o + (4 + b.length)) ByteArrayRecordReader.get b := by
  have hb' : b.length ≤ 10000 := hb
  have hsizeE : (E.drop o).take 4 = leBytes 4 b.length := by
    have h := congrArg (List.take 4) hE
    rw [List.take_take, Nat.min_eq_left (by omega), writeByteArray,
      List.take_left' (length_leBytes 4 _)] at h
    exact h
  have hdataE : (E.drop (o + 4)).take b.length = b := by
    have h := congrArg (List.drop 4) hE
    rw [List.drop_take, List.drop_drop, writeByteArray, List.drop_left' (length_leBytes 4 _),
      Nat.add_sub_cancel_left] at h
    exact h
  have hsize : Covers (ArrayField b o) .dataNotReady E o (o + 4)
      (Reader.focus (·.size) (fun r size => { r with size }) RecordReader.getInt) b.length := by
    refine (covers_getInt (by omega) hsizeE).focus (fun p r h _ => h.size) ?_
    intro p p' r t h ho hp hm ht
    exact ⟨ht, h.data.frame ho hp hm (by omega)⟩
  have hdata : Covers (ArrayField b o) .dataNotReady E (o + 4) (o + 4 + b.length)
      (Reader.focus (·.data) (fun r data => { r with data }) do
        Reader.update (·.setSize b.length)
        RecordReader.get) b := by
    refine (covers_sized hdataE).focus (fun p r h _ => h.data) ?_
    intro p p' r t h ho hp hm ht
    exact ⟨h.size.frame ho hp hm (by rw [length_leBytes]; omega), ht⟩
  rw [← Nat.add_assoc]
  refine hsize.bind ?_ (by omega)
  simp only [if_neg (by omega : ¬ MAX_RECORD_SIZE < b.length)]
  exact hdata

/-- The reader of an argument's body. -/
def ArgField (a : Arg) (o p : ℕ) (r : ArgReader) : Prop :=
  match a, r with
  | .int v, .int r => Field (leBytes 4 v) o p r
  | .byteArray b, .byteArray r => ArrayField b o p r
  | _, _ => False

theorem ArgField.frame {a : Arg} {i p p' : ℕ} {r : ArgReader} (h : ArgField a i p r) {o m : ℕ}
    (ho : o ≤ p) (hp : p ≤ p') (hm : p' ≤ max p m) (hout : i + a.body.length ≤ o ∨ m ≤ i) :
    ArgField a i p' r := by
  cases a with
  | int v =>
    cases r with
    | int r => exact Field.frame h ho hp hm hout
    | byteArray r => exact h
  | byteArray b =>
    cases r with
    | int r => exact h
    | byteArray r =>
      refine ArrayField.frame h ho hp hm ?_
      simp only [Arg.body, writeByteArray, List.length_append, length_leBytes] at hout
      exact hout

def Arg.WellFormed : Arg → Prop
  | .int v => v < 2 ^ 32
  | .byteArray b => b.length ≤ MAX_RECORD_SIZE

/-- What the reader of an argument yields. -/
def Arg.content : Arg → Bytes
  | .int v => leBytes 4 v
  | .byteArray b => b

theorem covers_getBody {E : Bytes} {a : Arg} {o : ℕ} (ha : a.WellFormed)
    (hE : (E.drop o).take a.body.length = a.body) :
    Covers (ArgField a o) .dataNotReady E o (o + a.body.length) ArgReader.get a.content := by
  cases a with
  | int v =>
    have hget := covers_get (F := leBytes 4 v) hE
    constructor
    · intro p r is hF ho htake hlen
      cases r with
      | int r =>
        obtain ⟨r', hrun, hF'⟩ := hget.done p r is hF ho htake hlen
        exact ⟨.int r', by simp only [ArgReader.get, hrun]; rfl, hF'⟩
      | byteArray r => exact absurd hF id
    · intro p r is hF ho htake hlen
      cases r with
      | int r =>
        obtain ⟨r', hrun, hF'⟩ := hget.wait p r is hF ho htake hlen
        exact ⟨.int r', by simp only [ArgReader.get, hrun], hF'⟩
      | byteArray r => exact absurd hF id
  | byteArray b =>
    have hlenb : (Arg.byteArray b).body.length = 4 + b.length := by
      simp [Arg.body, writeByteArray]
    rw [hlenb] at hE ⊢
    have hget := covers_getByteArray ha hE
    constructor
    · intro p r is hF ho htake hlen
      cases r with
      | int r => exact absurd hF id
      | byteArray r =>
        obtain ⟨r', hrun, hF'⟩ := hget.done p r is hF ho htake hlen
        exact ⟨.byteArray r', by simp only [ArgReader.get, hrun]; rfl, hF'⟩
    · intro p r is hF ho htake hlen
      cases r with
      | int r => exact absurd hF id
      | byteArray r =>
        obtain ⟨r', hrun, hF'⟩ := hget.wait p r is hF ho htake hlen
        exact ⟨.byteArray r', by simp only [ArgReader.get, hrun], hF'⟩

/-! ### The state of the parser inside a command -/

/-- Where argument `i` begins. -/
def Command.offset (c : Command) (i : ℕ) : ℕ :=
  4 + c.name.length + 4 + ((c.args.take i).flatMap sendArgument).length

structure At (c : Command) (p : ℕ) (s : GpgNetParse) : Prop where
  command : ArrayField c.name 0 p s.command
  numArgs : Field (leBytes 4 c.args.length) (4 + c.name.length) p s.numArgs
  argTypes : ∀ i a, c.args[i]? = some a →
    (∀ r, s.argTypes[i]? = some r → Field [a.type] (c.offset i) p r) ∧
      (s.argTypes[i]? = none → p ≤ c.offset i)
  args : ∀ i a, c.args[i]? = some a →
    (∀ r, s.args[i]? = some r → ArgField a (c.offset i + 1) p r) ∧
      (s.args[i]? = none → p ≤ c.offset i + 1)

section command

variable {c : Command}

theorem offset_succ {i : ℕ} {a : Arg} (h : c.args[i]? = some a) :
    c.offset (i + 1) = c.offset i + 1 + a.body.length := by
  have hlt := (List.getElem?_eq_some_iff.mp h).1
  have hget : c.args[i] = a := (List.getElem?_eq_some_iff.mp h).2
  simp only [Command.offset, List.take_succ_eq_append_getElem hlt, List.flatMap_append, hget,
    List.flatMap_cons, List.flatMap_nil, List.append_nil, List.length_append, sendArgument,
    List.length_cons]
  omega

theorem offset_mono {i j : ℕ} (h : i ≤ j) : c.offset i ≤ c.offset j := by
  have hp : c.args.take i <+: c.args.take j := List.take_prefix_take_left h
  obtain ⟨rest, hrest⟩ := hp
  simp only [Command.offset, ← hrest, List.flatMap_append, List.length_append]
  omega

theorem offset_lt {i j : ℕ} {a : Arg} (h : c.args[i]? = some a) (hij : i < j) :
    c.offset i + 1 + a.body.length ≤ c.offset j := by
  rw [← offset_succ h]
  exact offset_mono hij

theorem offset_zero : c.offset 0 = 4 + c.name.length + 4 := by
  simp [Command.offset]

theorem length_send (c : Command) : c.send.length = c.offset c.args.length := by
  simp only [Command.send, sendCommand, writeByteArray, Command.offset, List.length_append,
    length_leBytes, List.take_length]

theorem send_drop {i : ℕ} {a : Arg} (h : c.args[i]? = some a) :
    ∃ rest, c.send.drop (c.offset i) = a.type :: a.body ++ rest := by
  have hlt := (List.getElem?_eq_some_iff.mp h).1
  have hget : c.args[i] = a := (List.getElem?_eq_some_iff.mp h).2
  have hsplit : c.send = (sendCommand c.name c.args.length ++ (c.args.take i).flatMap sendArgument) ++
      (sendArgument a ++ (c.args.drop (i + 1)).flatMap sendArgument) := by
    have hargs : c.args = c.args.take i ++ a :: c.args.drop (i + 1) := by
      rw [← hget, ← List.drop_eq_getElem_cons hlt, List.take_append_drop]
    have hflat : c.args.flatMap sendArgument = (c.args.take i).flatMap sendArgument ++
        (sendArgument a ++ (c.args.drop (i + 1)).flatMap sendArgument) := by
      conv_lhs => rw [hargs]
      simp
    rw [Command.send, hflat, List.append_assoc]
  refine ⟨(c.args.drop (i + 1)).flatMap sendArgument, ?_⟩
  rw [hsplit, List.drop_left']
  · rfl
  · simp only [Command.offset, sendCommand, writeByteArray, List.length_append, length_leBytes]

theorem Arg.body_pos (a : Arg) : 0 < a.body.length := by
  cases a with
  | int v => simp [Arg.body]
  | byteArray b => simp [Arg.body, writeByteArray]

section frames

variable {p p' o m : ℕ} {s : GpgNetParse} (h : At c p s) (ho : o ≤ p) (hp : p ≤ p')
  (hm : p' ≤ max p m)
include h ho hp hm

theorem At.argTypes_frame {j : ℕ} {a : Arg} (hj : c.args[j]? = some a)
    (hout : c.offset j + 1 ≤ o ∨ m ≤ c.offset j) :
    (∀ r, s.argTypes[j]? = some r → Field [a.type] (c.offset j) p' r) ∧
      (s.argTypes[j]? = none → p' ≤ c.offset j) := by
  obtain ⟨h1, h2⟩ := h.argTypes j a hj
  refine ⟨fun r hr => (h1 r hr).frame ho hp hm hout, ?_⟩
  intro hn
  have := h2 hn
  omega

theorem At.args_frame {j : ℕ} {a : Arg} (hj : c.args[j]? = some a)
    (hout : c.offset j + 1 + a.body.length ≤ o ∨ m ≤ c.offset j + 1) :
    (∀ r, s.args[j]? = some r → ArgField a (c.offset j + 1) p' r) ∧
      (s.args[j]? = none → p' ≤ c.offset j + 1) := by
  obtain ⟨h1, h2⟩ := h.args j a hj
  have hpos := a.body_pos
  refine ⟨fun r hr => (h1 r hr).frame ho hp hm hout, ?_⟩
  intro hn
  have := h2 hn
  omega

theorem At.header_frame (hoff : c.offset 0 ≤ o) :
    ArrayField c.name 0 p' s.command ∧
      Field (leBytes 4 c.args.length) (4 + c.name.length) p' s.numArgs := by
  rw [offset_zero] at hoff
  refine ⟨h.command.frame ho hp hm (by omega), h.numArgs.frame ho hp hm ?_⟩
  rw [length_leBytes]
  omega

end frames

/-! ### The pieces of `getCommand` -/

theorem covers_getName (hname : c.name.length ≤ MAX_RECORD_SIZE) :
    Covers (At c) .dataNotReady c.send 0 (4 + c.name.length) GpgNetParse.getName c.name := by
  have hE : (c.send.drop 0).take (4 + c.name.length) = writeByteArray c.name := by
    have hlen : (writeByteArray c.name).length = 4 + c.name.length := by simp [writeByteArray]
    rw [List.drop_zero, Command.send, sendCommand, List.append_assoc, List.take_left' hlen]
  have hget := covers_getByteArray hname hE
  rw [Nat.zero_add] at hget
  refine hget.focus (fun p s h _ => h.command) ?_
  intro p p' s t h ho hp hm ht
  refine ⟨ht, h.numArgs.frame ho hp hm (by omega), ?_, ?_⟩
  · intro i a hi
    have hoff := offset_mono (c := c) (Nat.zero_le i)
    rw [offset_zero] at hoff
    exact h.argTypes_frame ho hp hm hi (by omega)
  · intro i a hi
    have hoff := offset_mono (c := c) (Nat.zero_le i)
    rw [offset_zero] at hoff
    exact h.args_frame ho hp hm hi (by omega)

theorem covers_getNumArgs (hargs : c.args.length ≤ MAX_NUM_ARGS) :
    Covers (At c) .dataNotReady c.send (4 + c.name.length) (c.offset 0) GpgNetParse.getNumArgs
      c.args.length := by
  have hargs' : c.args.length ≤ 10 := hargs
  have hE : (c.send.drop (4 + c.name.length)).take 4 = leBytes 4 c.args.length := by
    have hlen : (writeByteArray c.name).length = 4 + c.name.length := by simp [writeByteArray]
    rw [Command.send, sendCommand, List.append_assoc, List.drop_left' hlen,
      List.take_left' (length_leBytes 4 _)]
  rw [offset_zero]
  refine (covers_getInt (by omega) hE).focus (fun p s h _ => h.numArgs) ?_
  intro p p' s t h ho hp hm ht
  refine ⟨h.command.frame ho hp hm (by omega), ht, ?_, ?_⟩
  · intro i a hi
    have hoff := offset_mono (c := c) (Nat.zero_le i)
    rw [offset_zero] at hoff
    exact h.argTypes_frame ho hp hm hi (by omega)
  · intro i a hi
    have hoff := offset_mono (c := c) (Nat.zero_le i)
    rw [offset_zero] at hoff
    exact h.args_frame ho hp hm hi (by omega)

theorem At.reached {p i : ℕ} {s : GpgNetParse} (h : At c p s) (hi : i < c.args.length)
    (hp : c.offset i ≤ p) : i ≤ s.argTypes.length ∧ i ≤ s.args.length := by
  cases i with
  | zero => exact ⟨Nat.zero_le _, Nat.zero_le _⟩
  | succ j =>
    have hj : c.args[j]? = some c.args[j] := List.getElem?_eq_getElem (by omega)
    have hoff := offset_succ hj
    have hpos := c.args[j].body_pos
    constructor
    · by_contra hlt
      have := (h.argTypes j _ hj).2 (List.getElem?_eq_none (by omega))
      omega
    · by_contra hlt
      have := (h.args j _ hj).2 (List.getElem?_eq_none (by omega))
      omega

theorem field_newByte (b : Byte) {o p : ℕ} (hp : p ≤ o) : Field [b] o p .newByte := by
  have h0 : min (p - o) 1 = 0 := by omega
  exact ⟨rfl, h0.symm, rfl⟩

theorem field_newInt (v : ℕ) {o p : ℕ} (hp : p ≤ o) : Field (leBytes 4 v) o p .newInt := by
  refine ⟨?_, ?_, rfl⟩
  · rw [length_leBytes]
    rfl
  · rw [show p - o = 0 by omega, Nat.zero_min]
    rfl

theorem At.pushArgType {p i : ℕ} {a : Arg} {s : GpgNetParse} (h : At c p s)
    (hi : c.args[i]? = some a) (hp : c.offset i ≤ p) :
    At c p (s.pushArgType i) ∧ i < (s.pushArgType i).argTypes.length := by
  have hlt := (List.getElem?_eq_some_iff.mp hi).1
  have hreach := (h.reached hlt hp).1
  unfold GpgNetParse.pushArgType
  split
  · rename_i hlen
    have hnew := (h.argTypes i a hi).2 (List.getElem?_eq_none (by omega))
    refine ⟨⟨h.command, h.numArgs, ?_, h.args⟩, by simp [hlen]⟩
    intro j b hj
    rcases Nat.lt_trichotomy j i with hji | rfl | hji
    · simp only [List.getElem?_append_left (by omega : j < s.argTypes.length)]
      exact h.argTypes j b hj
    · simp only [← hlen, List.getElem?_concat_length]
      rw [hi] at hj
      cases hj
      refine ⟨?_, by simp⟩
      intro r hr
      cases hr
      rw [hlen]
      exact field_newByte a.type hnew
    · have hnone : (s.argTypes ++ [RecordReader.newByte])[j]? = s.argTypes[j]? := by
        rw [List.getElem?_eq_none (by simp; omega), List.getElem?_eq_none (by omega)]
      simp only [hnone]
      exact h.argTypes j b hj
  · exact ⟨h, by omega⟩

theorem covers_getByte {E : Bytes} {o : ℕ} {b : Byte} (hE : (E.drop o).take 1 = [b]) :
    Covers (Field [b] o) .dataNotReady E o (o + 1) RecordReader.getByte b.toNat := by
  have hget := covers_get (F := [b]) hE
  exact hget.bind (.pure _) le_rfl

theorem covers_getArgType {i : ℕ} {a : Arg} (hi : c.args[i]? = some a) :
    Covers (At c) .dataNotReady c.send (c.offset i) (c.offset i + 1) (GpgNetParse.getArgType i)
      a.type.toNat := by
  obtain ⟨rest, hrest⟩ := send_drop hi
  have hE : (c.send.drop (c.offset i)).take 1 = [a.type] := by
    rw [hrest]
    rfl
  have hfocus : Covers (fun p s => At c p s ∧ i < s.argTypes.length) .dataNotReady c.send (c.offset i)
      (c.offset i + 1) (Reader.focus (fun s => s.argTypes.getD i .new)
        (fun s r => { s with argTypes := s.argTypes.set i r }) RecordReader.getByte) a.type.toNat := by
    refine (covers_getByte hE).focus ?_ ?_
    · intro p s hx _
      obtain ⟨h, hlt⟩ := hx
      have hget : s.argTypes[i]? = some s.argTypes[i] := List.getElem?_eq_getElem hlt
      rw [List.getD_eq_getElem?_getD, hget]
      exact (h.argTypes i a hi).1 _ hget
    · intro p p' s t hx ho hp hm ht
      obtain ⟨h, hlt⟩ := hx
      obtain ⟨h1, h2⟩ := h.header_frame ho hp hm (offset_mono (Nat.zero_le i))
      refine ⟨⟨h1, h2, ?_, ?_⟩, by simpa using hlt⟩
      · intro j b hj
        by_cases hij : i = j
        · subst hij
          rw [hi] at hj
          cases hj
          simp only [List.getElem?_set_self hlt]
          exact ⟨fun r hr => by cases hr; exact ht, by simp⟩
        · simp only [List.getElem?_set_ne hij]
          refine h.argTypes_frame ho hp hm hj ?_
          rcases Nat.lt_or_gt_of_ne hij with hij | hij
          · exact Or.inr (by have := offset_lt hi hij; omega)
          · exact Or.inl (by have := offset_lt hj hij; omega)
      · intro j b hj
        refine h.args_frame ho hp hm hj ?_
        rcases Nat.lt_or_ge j i with hij | hij
        · exact Or.inl (offset_lt hj hij)
        · exact Or.inr (by have := offset_mono (c := c) hij; omega)
  exact hfocus.prepare (fun p s h ho => h.pushArgType hi ho) (fun p s h => h.1)

/-- The reader `getArg` creates for an argument. -/
def Arg.newReader : Arg → ArgReader
  | .int _ => .int .newInt
  | .byteArray _ => .byteArray .new

theorem argField_newReader (a : Arg) {o p : ℕ} (hp : p ≤ o) : ArgField a o p a.newReader := by
  cases a with
  | int v => exact field_newInt v hp
  | byteArray b =>
    refine ⟨field_newInt _ hp, ⟨fun h => absurd h (by decide), ?_, rfl⟩⟩
    rw [show p - (o + 4) = 0 by omega, Nat.zero_min]
    rfl

theorem At.pushArg {p i : ℕ} {a : Arg} {s : GpgNetParse} (h : At c p s)
    (hi : c.args[i]? = some a) (hp : c.offset i + 1 ≤ p) :
    At c p (s.pushArg i a.newReader) ∧ i < (s.pushArg i a.newReader).args.length := by
  have hlt := (List.getElem?_eq_some_iff.mp hi).1
  have hreach := (h.reached hlt (by omega)).2
  unfold GpgNetParse.pushArg
  split
  · rename_i hlen
    have hnew := (h.args i a hi).2 (List.getElem?_eq_none (by omega))
    refine ⟨⟨h.command, h.numArgs, h.argTypes, ?_⟩, by simp [hlen]⟩
    intro j b hj
    rcases Nat.lt_trichotomy j i with hji | rfl | hji
    · simp only [List.getElem?_append_left (by omega : j < s.args.length)]
      exact h.args j b hj
    · simp only [← hlen, List.getElem?_concat_length]
      rw [hi] at hj
      cases hj
      refine ⟨?_, by simp⟩
      intro r hr
      cases hr
      rw [hlen]
      exact argField_newReader a hnew
    · have hnone : (s.args ++ [a.newReader])[j]? = s.args[j]? := by
        rw [List.getElem?_eq_none (by simp; omega), List.getElem?_eq_none (by omega)]
      simp only [hnone]
      exact h.args j b hj
  · exact ⟨h, by omega⟩

theorem covers_getArgBuffer {i : ℕ} {a : Arg} (hi : c.args[i]? = some a) (ha : a.WellFormed) :
    Covers (At c) .dataNotReady c.send (c.offset i + 1) (c.offset (i + 1))
      (GpgNetParse.getArgBuffer i a.newReader) a.content := by
  obtain ⟨rest, hrest⟩ := send_drop hi
  have hE : (c.send.drop (c.offset i + 1)).take a.body.length = a.body := by
    rw [← List.drop_drop, hrest, List.cons_append, List.drop_succ_cons, List.drop_zero,
      List.take_left' rfl]
  rw [offset_succ hi]
  have hfocus : Covers (fun p s => At c p s ∧ i < s.args.length) .dataNotReady c.send
      (c.offset i + 1) (c.offset i + 1 + a.body.length)
      (Reader.focus (fun s => s.args.getD i a.newReader)
        (fun s r => { s with args := s.args.set i r }) ArgReader.get) a.content := by
    refine (covers_getBody ha hE).focus ?_ ?_
    · intro p s hx _
      obtain ⟨h, hlt⟩ := hx
      have hget : s.args[i]? = some s.args[i] := List.getElem?_eq_getElem hlt
      rw [List.getD_eq_getElem?_getD, hget]
      exact (h.args i a hi).1 _ hget
    · intro p p' s t hx ho hp hm ht
      obtain ⟨h, hlt⟩ := hx
      have hoff := offset_mono (c := c) (Nat.zero_le i)
      obtain ⟨h1, h2⟩ := h.header_frame ho hp hm (by omega)
      refine ⟨⟨h1, h2, ?_, ?_⟩, by simpa using hlt⟩
      · intro j b hj
        refine h.argTypes_frame ho hp hm hj ?_
        rcases Nat.lt_or_ge i j with hij | hij
        · exact Or.inr (offset_lt hi hij)
        · exact Or.inl (by have := offset_mono (c := c) hij; omega)
      · intro j b hj
        by_cases hij : i = j
        · subst hij
          rw [hi] at hj
          cases hj
          simp only [List.getElem?_set_self hlt]
          exact ⟨fun r hr => by cases hr; exact ht, by simp⟩
        · simp only [List.getElem?_set_ne hij]
          refine h.args_frame ho hp hm hj ?_
          rcases Nat.lt_or_gt_of_ne hij with hij | hij
          · exact Or.inr (by have := offset_lt hi hij; omega)
          · exact Or.inl (by have := offset_lt hj hij; omega)
  exact hfocus.prepare (fun p s h ho => h.pushArg hi ho) (fun p s h => h.1)

theorem covers_getArg {i : ℕ} {a : Arg} (hi : c.args[i]? = some a) (ha : a.WellFormed) :
    Covers (At c) .dataNotReady c.send (c.offset i) (c.offset (i + 1)) (GpgNetParse.getArg i) a := by
  have hbuf := covers_getArgBuffer hi ha
  have hle : c.offset i + 1 ≤ c.offset (i + 1) := by
    rw [offset_succ hi]
    omega
  refine (covers_getArgType hi).bind ?_ hle
  cases a with
  | int v =>
    have hval : leVal ((leBytes 4 v).take 4) = v := by
      rw [List.take_of_length_le (by simp), leVal_leBytes]
      exact Nat.mod_eq_of_lt (by simpa [Arg.WellFormed] using ha)
    have h0 : (0 : Byte).toNat = 0 := rfl
    simp only [Arg.type, h0, if_true]
    refine hbuf.bind ?_ le_rfl
    simp only [Arg.content, hval]
    exact .pure _
  | byteArray b =>
    have h1 : (1 : Byte).toNat = 1 := rfl
    simp only [Arg.type, h1, Nat.one_ne_zero, if_false, if_true]
    exact hbuf.bind (.pure _) le_rfl

theorem covers_getArgs (hwf : ∀ a ∈ c.args, a.WellFormed) (n i : ℕ) (hn : i + n = c.args.length) :
    Covers (At c) .dataNotReady c.send (c.offset i) (c.offset c.args.length)
      (GpgNetParse.getArgs n i) (c.args.drop i) := by
  induction n generalizing i with
  | zero =>
    have hi : i = c.args.length := by omega
    subst hi
    rw [List.drop_length]
    exact .pure _
  | succ n ih =>
    have hlt : i < c.args.length := by omega
    rw [List.drop_eq_getElem_cons hlt]
    refine (covers_getArg (List.getElem?_eq_getElem hlt) (hwf _ (List.getElem_mem hlt))).bind ?_
      (offset_mono hlt)
    exact (ih (i + 1) (by omega)).bind (.pure _) le_rfl

/-! ### Whole commands -/

structure Command.WellFormed (c : Command) : Prop where
  name_pos : 0 < c.name.length
  name_le : c.name.length ≤ MAX_RECORD_SIZE
  args_le : c.args.length ≤ MAX_NUM_ARGS
  args : ∀ a ∈ c.args, a.WellFormed

theorem covers_readCommand (hwf : c.WellFormed) :
    Covers (At c) .dataNotReady c.send 0 c.send.length GpgNetParse.readCommand c := by
  have h0 := offset_zero (c := c)
  have hmono := offset_mono (c := c) (Nat.zero_le c.args.length)
  rw [length_send]
  refine (covers_getName hwf.name_le).bind ?_ (by omega)
  refine (covers_getNumArgs hwf.args_le).bind ?_ hmono
  simp only [if_neg (Nat.not_lt.mpr hwf.args_le)]
  exact (covers_getArgs hwf.args _ 0 (Nat.zero_add _)).bind (.pure _) le_rfl

/-- A parser between two commands: the sizes of its fixed buffers are kept. -/
structure Idle (s : GpgNetParse) : Prop where
  commandSize : s.command.size.buffer.length = 4 ∧ s.command.size.progress = 0
  commandData : s.command.data.progress = 0
  numArgs : s.numArgs.buffer.length = 4 ∧ s.numArgs.progress = 0
  argTypes : s.argTypes = []
  args : s.args = []

theorem idle_new : Idle .new := by
  constructor <;> simp [GpgNetParse.new, ByteArrayRecordReader.new, RecordReader.newInt,
    RecordReader.setSize, RecordReader.new]

theorem Idle.at {s : GpgNetParse} (h : Idle s) (c : Command) : At c 0 s where
  command := by
    refine ⟨⟨?_, ?_, ?_⟩, ⟨?_, ?_, ?_⟩⟩
    · rw [h.commandSize.1, length_leBytes]
    · rw [h.commandSize.2, Nat.zero_sub, Nat.zero_min]
    · simp [h.commandSize.2]
    · simp [h.commandData]
    · rw [h.commandData, Nat.zero_sub, Nat.zero_min]
    · simp [h.commandData]
  numArgs := by
    refine ⟨?_, ?_, ?_⟩
    · rw [h.numArgs.1, length_leBytes]
    · rw [h.numArgs.2, Nat.zero_sub, Nat.zero_min]
    · simp [h.numArgs.2]
  argTypes := by
    intro i a _
    simp [h.argTypes]
  args := by
    intro i a _
    simp [h.args]

theorem At.reset {p : ℕ} {s : GpgNetParse} (h : At c p s) : Idle s.reset where
  commandSize := ⟨h.command.size.size.trans (length_leBytes 4 _), rfl⟩
  commandData := rfl
  numArgs := ⟨h.numArgs.size.trans (length_leBytes 4 _), rfl⟩
  argTypes := rfl
  args := rfl

section getCommand

variable {p : ℕ} {s : GpgNetParse} {is : Bytes} (hwf : c.WellFormed) (h : At c p s)
include hwf h

/-- `getCommand` when the rest of the command has arrived. -/
theorem getCommand_done {later : Bytes} (his : is = c.send.drop p ++ later) :
    ∃ s', GpgNetParse.getCommand s is = (.ok c, s', later) ∧ Idle s' := by
  have hlen : (c.send.drop p).length = c.send.length - p := List.length_drop
  obtain ⟨s', hrun, hat⟩ := (covers_readCommand hwf).done p s is h (Nat.zero_le p)
    (by rw [his, List.take_left' hlen, List.take_of_length_le (by omega)])
    (by rw [his, List.length_append]; omega)
  refine ⟨s'.reset, ?_, hat.reset⟩
  rw [GpgNetParse.getCommand, Reader.bind_ok hrun, his, List.drop_left' hlen]
  rfl

/-- `getCommand` when only a part of the rest has arrived. -/
theorem getCommand_wait (his : is <+: c.send.drop p) (hlt : p + is.length < c.send.length) :
    ∃ s', GpgNetParse.getCommand s is = (.error .dataNotReady, s', []) ∧ At c (p + is.length) s' := by
  obtain ⟨s', hrun, hat⟩ := (covers_readCommand hwf).wait p s is h (Nat.zero_le p)
    (List.prefix_iff_eq_take.mp his) (by omega)
  exact ⟨s', Reader.bind_error hrun, hat⟩

end getCommand

end command

end Gpgnet4TA.Gpgnet
