import Gpgnet4TA.Lib.Bytes

/-!
# The launch status (`LaunchServer.cpp`, `LaunchClient.cpp`)

The server ends each status message with a zero byte. The client takes whatever a read
returns for one message: it looks at the first word of the text before the first zero byte.
So it hears the messages that stand at the beginning of a read.
-/

namespace Gpgnet4TA.Talaunch
open Gpgnet4TA.Lib

/-- `LaunchClient::State`. -/
inductive State where
  | CONNECTING
  | IDLE
  | RUNNING
  | LAUNCHED
  | FAIL
  deriving DecidableEq

/-! ### The server (`LaunchServer.cpp:135-262`) -/

inductive StatusMessage where
  | running
  | launched
  | idle
  | fail
  | failWith (exitCode : ℕ)
  deriving DecidableEq

def ascii (s : String) : Bytes := s.toList.map fun c => UInt8.ofNat c.toNat

def hexDigit (d : ℕ) : Byte := UInt8.ofNat (if d < 10 then 0x30 + d else 0x57 + d)

/-- `arg(exitCode, 0, 16, QChar('0'))`. -/
def hex (n : ℕ) : Bytes := if n = 0 then [0x30] else (Nat.digits 16 n).reverse.map hexDigit

namespace StatusMessage

def word : StatusMessage → Bytes
  | running => ascii "RUNNING"
  | launched => ascii "LAUNCHED"
  | idle => ascii "IDLE"
  | fail => ascii "FAIL"
  | failWith _ => ascii "FAIL"

def text : StatusMessage → Bytes
  | failWith exitCode => ascii "FAIL " ++ hex exitCode
  | m => m.word

/-- The state that a message names. -/
def state : StatusMessage → State
  | running => .RUNNING
  | launched => .LAUNCHED
  | idle => .IDLE
  | fail => .FAIL
  | failWith _ => .FAIL

end StatusMessage

/-- `notifyClients` writes the text with its terminator. -/
def notifyClients (m : StatusMessage) : Bytes := m.text ++ [0]

def written (msgs : List StatusMessage) : Bytes := msgs.flatMap notifyClients

/-! ### The client (`LaunchClient.cpp:147-175`) -/

/-- `QString::fromUtf8(data).split(" ")[0]`. -/
def response (data : Bytes) : Bytes := (data.takeWhile (· ≠ 0)).takeWhile (· ≠ 0x20)

def stateOf (word : Bytes) : Option State :=
  if word = ascii "IDLE" then some .IDLE
  else if word = ascii "RUNNING" then some .RUNNING
  else if word = ascii "LAUNCHED" then some .LAUNCHED
  else if word = ascii "FAIL" then some .FAIL
  else none

def onReadyReadTcp (s : State) (data : Bytes) : State :=
  if data = [] then s else (stateOf (response data)).getD s

/-! ### Which messages are heard -/

/-- The messages with the places where they begin. -/
def starts : ℕ → List StatusMessage → List (ℕ × StatusMessage)
  | _, [] => []
  | ofs, m :: msgs => (ofs, m) :: starts (ofs + (notifyClients m).length) msgs

/-- The message that begins at this place and whose word ends within `n` bytes. -/
def heardAt (msgs : List (ℕ × StatusMessage)) (ofs n : ℕ) : Option StatusMessage :=
  (msgs.find? fun m => m.1 = ofs ∧ m.2.word.length ≤ n).map (·.2)

/-- What each read begins with. -/
def heard (msgs : List (ℕ × StatusMessage)) : ℕ → List Bytes → List StatusMessage
  | _, [] => []
  | ofs, data :: reads => (heardAt msgs ofs data.length).toList ++ heard msgs (ofs + data.length) reads

/-! ### Words -/

theorem stateOf_word (m : StatusMessage) : stateOf m.word = some m.state := by
  cases m <;> rfl

def words : List Bytes := [ascii "RUNNING", ascii "LAUNCHED", ascii "IDLE", ascii "FAIL"]

theorem StatusMessage.word_mem (m : StatusMessage) : m.word ∈ words := by
  cases m <;> simp [word, words]

theorem stateOf_inside (m : StatusMessage) {ofs n : ℕ} (hn : 0 < n)
    (h : 0 < ofs ∨ n < m.word.length) : stateOf ((m.word.drop ofs).take n) = none := by
  have hwords : ∀ word ∈ words, ∀ ofs < 9, ∀ n < 9, 0 < n → 0 < ofs ∨ n < word.length →
      stateOf ((word.drop ofs).take n) = none := by
    decide +kernel
  have hlen : ∀ word ∈ words, word.length ≤ 8 := by decide
  have hmem := m.word_mem
  have hle := hlen _ hmem
  by_cases hofs : ofs < 9
  · by_cases hshort : n < 9
    · exact hwords _ hmem ofs hofs n hshort hn h
    · have htake : (m.word.drop ofs).take n = (m.word.drop ofs).take 8 := by
        rw [List.take_of_length_le (by rw [List.length_drop]; omega),
          List.take_of_length_le (by rw [List.length_drop]; omega)]
      rw [htake]
      apply hwords _ hmem ofs hofs 8 (by omega) (by omega)
      rcases h with h | h
      · exact Or.inl h
      · omega
  · rw [List.drop_of_length_le (by omega), List.take_nil]
    rfl

/-- Neither a terminator nor a blank, nor the beginning of a word. -/
def OfCode (b : Byte) : Prop := b ≠ 0 ∧ b ≠ 0x20 ∧ b ≠ 0x49 ∧ b ≠ 0x52 ∧ b ≠ 0x4c ∧ b ≠ 0x46

theorem ofCode_hexDigit {d : ℕ} (h : d < 16) : OfCode (hexDigit d) := by
  interval_cases d <;> exact ⟨by decide, by decide, by decide, by decide, by decide, by decide⟩

theorem ofCode_hex (n : ℕ) : ∀ b ∈ hex n, OfCode b := by
  intro b hb
  rw [hex] at hb
  split at hb
  · rw [List.mem_singleton.mp hb]
    exact ofCode_hexDigit (by omega : 0 < 16)
  · obtain ⟨d, hd, rfl⟩ := List.mem_map.mp hb
    exact ofCode_hexDigit (Nat.digits_lt_base (by omega) (List.mem_reverse.mp hd))

theorem stateOf_code {bs : Bytes} (h : ∀ b ∈ bs, OfCode b) : stateOf bs = none := by
  cases bs with
  | nil => rfl
  | cons b bs =>
    obtain ⟨-, -, hi, hr, hl, hf⟩ := h b List.mem_cons_self
    have hidle : b :: bs ≠ ascii "IDLE" := fun heq => hi (List.cons.inj heq).1
    have hrunning : b :: bs ≠ ascii "RUNNING" := fun heq => hr (List.cons.inj heq).1
    have hlaunched : b :: bs ≠ ascii "LAUNCHED" := fun heq => hl (List.cons.inj heq).1
    have hfail : b :: bs ≠ ascii "FAIL" := fun heq => hf (List.cons.inj heq).1
    rw [stateOf, if_neg hidle, if_neg hrunning, if_neg hlaunched, if_neg hfail]

/-! ### One read -/

/-- A read that begins inside a text ends, for the client, with that text. -/
theorem response_take {s : Bytes} (hs : 0 ∉ s) (rest : Bytes) (n : ℕ) :
    response ((s ++ 0 :: rest).take n) = (s.takeWhile (· ≠ 0x20)).take n := by
  induction s generalizing n with
  | nil =>
    cases n with
    | zero => rfl
    | succ n => simp [response]
  | cons b s ih =>
    cases n with
    | zero => simp [response]
    | succ n =>
      have hb : b ≠ 0 := fun h => hs (h ▸ List.mem_cons_self)
      have hrest := ih (fun h => hs (List.mem_cons_of_mem _ h)) n
      rw [response] at hrest
      by_cases hblank : b = 0x20
      · simp [response, hblank]
      · simp [response, hb, hblank] at hrest ⊢
        exact hrest

theorem text_cases (m : StatusMessage) :
    m.text = m.word ∨ ∃ code, m.text = m.word ++ 0x20 :: code ∧ ∀ b ∈ code, OfCode b := by
  cases m with
  | failWith exitCode => exact Or.inr ⟨hex exitCode, rfl, ofCode_hex exitCode⟩
  | _ => exact Or.inl rfl

theorem ofText_word (m : StatusMessage) : ∀ b ∈ m.word, b ≠ 0 ∧ b ≠ 0x20 := by
  have hwords : ∀ word ∈ words, ∀ b ∈ word, b ≠ 0 ∧ b ≠ 0x20 := by decide +kernel
  exact hwords _ m.word_mem

theorem zero_not_mem_text (m : StatusMessage) : 0 ∉ m.text := by
  have hword : 0 ∉ m.word := fun h => (ofText_word m 0 h).1 rfl
  obtain h | ⟨code, h, hcode⟩ := text_cases m
  · rw [h]
    exact hword
  · rw [h, List.mem_append, List.mem_cons]
    intro hx
    obtain hmem | hblank | hmem := hx
    · exact hword hmem
    · cases hblank
    · exact (hcode 0 hmem).1 rfl

theorem takeWhile_of_forall {p : Byte → Bool} {bs : Bytes} (h : ∀ b ∈ bs, p b = true) : bs.takeWhile p = bs := by
  rw [List.takeWhile_eq_self_iff]
  exact h

/-- What the client takes for the word of a read that begins inside a message. -/
theorem stateOf_text (m : StatusMessage) {ofs n : ℕ} (hn : 0 < n) :
    stateOf (((m.text.drop ofs).takeWhile (· ≠ 0x20)).take n) =
      if ofs = 0 ∧ m.word.length ≤ n then some m.state else none := by
  have hword : ∀ ofs, ∀ b ∈ m.word.drop ofs, decide (b ≠ 0x20) = true := fun ofs b hb =>
    decide_eq_true (ofText_word m b (List.mem_of_mem_drop hb)).2
  have hinside : stateOf ((m.word.drop ofs).take n) =
      if ofs = 0 ∧ m.word.length ≤ n then some m.state else none := by
    by_cases hall : ofs = 0 ∧ m.word.length ≤ n
    · rw [if_pos hall, hall.1, List.drop_zero, List.take_of_length_le hall.2]
      exact stateOf_word m
    · rw [if_neg hall]
      apply stateOf_inside m hn
      rw [not_and_or, not_le] at hall
      exact hall.imp_left Nat.pos_of_ne_zero
  obtain h | ⟨code, h, hcode⟩ := text_cases m
  · rw [h, takeWhile_of_forall (hword ofs), hinside]
  · rw [h]
    by_cases hofs : ofs ≤ m.word.length
    · have htake : (m.word.drop ofs ++ 0x20 :: code).takeWhile (· ≠ 0x20) = m.word.drop ofs := by
        rw [List.takeWhile_append_of_pos (hword ofs)]
        simp
      rw [List.drop_append_of_le_length hofs, htake, hinside]
    · -- the read begins inside the code
      have hdrop : (m.word ++ 0x20 :: code).drop ofs = code.drop (ofs - m.word.length - 1) := by
        rw [List.drop_append, List.drop_of_length_le (by omega), List.nil_append]
        obtain ⟨k, hk⟩ : ∃ k, ofs - m.word.length = k + 1 := ⟨ofs - m.word.length - 1, by omega⟩
        rw [hk, List.drop_succ_cons, Nat.add_sub_cancel]
      have hcode' : ∀ b ∈ code.drop (ofs - m.word.length - 1), OfCode b := fun b hb =>
        hcode b (List.mem_of_mem_drop hb)
      rw [hdrop, takeWhile_of_forall fun b hb => decide_eq_true (hcode' b hb).2.1,
        stateOf_code fun b hb => hcode' b (List.mem_of_mem_take hb), if_neg]
      intro hx
      obtain ⟨rfl, -⟩ := hx
      omega

/-! ### A read of the stream -/

theorem le_of_mem_starts {base : ℕ} {msgs : List StatusMessage} {x : ℕ × StatusMessage}
    (h : x ∈ starts base msgs) : base ≤ x.1 := by
  induction msgs generalizing base with
  | nil => exact absurd h List.not_mem_nil
  | cons m msgs ih =>
    rcases List.mem_cons.mp h with rfl | h
    · exact Nat.le_refl _
    · exact (Nat.le_add_right _ _).trans (ih h)

/-- A read is heard when it begins with a message and holds its word. -/
theorem stateOf_read {msgs : List StatusMessage} {ofs n : ℕ} (base : ℕ) (hn : 0 < n)
    (hofs : ofs < (written msgs).length) :
    stateOf (response (((written msgs).drop ofs).take n)) =
      (heardAt (starts base msgs) (base + ofs) n).map StatusMessage.state := by
  induction msgs generalizing ofs base with
  | nil => cases hofs
  | cons m msgs ih =>
    have hlen : (notifyClients m).length = m.text.length + 1 := by simp [notifyClients]
    have hwritten : written (m :: msgs) = notifyClients m ++ written msgs := List.flatMap_cons
    by_cases hin : ofs < (notifyClients m).length
    · have hdrop : (written (m :: msgs)).drop ofs = m.text.drop ofs ++ 0 :: written msgs := by
        rw [hwritten, notifyClients, List.append_assoc, List.drop_append_of_le_length (by omega)]
        rfl
      have hzero : 0 ∉ m.text.drop ofs := fun h => zero_not_mem_text m (List.mem_of_mem_drop h)
      have hlater : ∀ x ∈ starts (base + (notifyClients m).length) msgs,
          ¬ decide (x.1 = base + ofs ∧ x.2.word.length ≤ n) = true := by
        intro x hx
        have hle := le_of_mem_starts hx
        simp only [decide_eq_true_eq, not_and]
        omega
      rw [hdrop, response_take hzero, stateOf_text m hn, heardAt, starts, List.find?_cons]
      by_cases hall : ofs = 0 ∧ m.word.length ≤ n
      · rw [if_pos hall, hall.1]
        simp [hall.2]
      · have hfirst : decide (base = base + ofs ∧ m.word.length ≤ n) = false := by
          simp only [decide_eq_false_iff_not]
          intro hgiven
          obtain ⟨heq, hle⟩ := hgiven
          exact hall ⟨by omega, hle⟩
        rw [if_neg hall, hfirst, List.find?_eq_none.mpr hlater]
        rfl
    · have hdrop : (written (m :: msgs)).drop ofs = (written msgs).drop (ofs - (notifyClients m).length) := by
        rw [hwritten, List.drop_append, List.drop_of_length_le (by omega), List.nil_append]
      have hrest : ofs - (notifyClients m).length < (written msgs).length := by
        rw [hwritten, List.length_append] at hofs
        omega
      have hfirst : decide (base = base + ofs ∧ m.word.length ≤ n) = false := by
        simp only [decide_eq_false_iff_not]
        intro hgiven
        obtain ⟨heq, -⟩ := hgiven
        omega
      have hplace : base + (notifyClients m).length + (ofs - (notifyClients m).length) = base + ofs := by omega
      rw [hdrop, ih (base + (notifyClients m).length) hrest, hplace, heardAt, heardAt, starts, List.find?_cons,
        hfirst]

theorem heardAt_zero (msgs : List (ℕ × StatusMessage)) (ofs : ℕ) : heardAt msgs ofs 0 = none := by
  have hlen : ∀ word ∈ words, 0 < word.length := by decide
  have hnone : msgs.find? (fun m => m.1 = ofs ∧ m.2.word.length ≤ 0) = none := by
    rw [List.find?_eq_none]
    intro m _ hm
    have hpos := hlen _ m.2.word_mem
    have hle := (of_decide_eq_true hm).2
    omega
  rw [heardAt, hnone]
  rfl

theorem onReadyReadTcp_read {msgs : List StatusMessage} {s : State} {data rest : Bytes} {ofs : ℕ}
    (h : data ++ rest = (written msgs).drop ofs) :
    onReadyReadTcp s data = ((heardAt (starts 0 msgs) ofs data.length).map StatusMessage.state).getD s := by
  by_cases hdata : data = []
  · rw [hdata, List.length_nil, heardAt_zero]
    rfl
  · have hpos : 0 < data.length := List.length_pos_iff.mpr hdata
    have hofs : ofs < (written msgs).length := by
      have hlen := congrArg List.length h
      rw [List.length_append, List.length_drop] at hlen
      omega
    have htake : data = ((written msgs).drop ofs).take data.length := by
      rw [← h, List.take_left']
      rfl
    have hread := stateOf_read 0 hpos hofs
    rw [← htake, Nat.zero_add] at hread
    rw [onReadyReadTcp, if_neg hdata, hread]

/-- After all reads the client is in the state that the last message it heard names. -/
theorem foldl_onReadyReadTcp {msgs : List StatusMessage} {s : State} {reads : List Bytes} {ofs : ℕ}
    (h : reads.flatten = (written msgs).drop ofs) :
    reads.foldl onReadyReadTcp s = ((heard (starts 0 msgs) ofs reads).getLast?.map StatusMessage.state).getD s := by
  induction reads generalizing s ofs with
  | nil => rfl
  | cons data reads ih =>
    rw [List.flatten_cons] at h
    have hrest : reads.flatten = (written msgs).drop (ofs + data.length) := by
      rw [← List.drop_drop, ← h, List.drop_left']
      rfl
    rw [List.foldl_cons, ih hrest, onReadyReadTcp_read h, heard, List.getLast?_append]
    cases (heard (starts 0 msgs) (ofs + data.length) reads).getLast? with
    | some m => rfl
    | none =>
      cases heardAt (starts 0 msgs) ofs data.length <;> rfl

/-- The client ends in the state of the last message if and only if the last message that a
read begins with, all of its word included, names that state (or none is read so and the
client was in that state before). -/
theorem last_status_iff {msgs : List StatusMessage} {last : StatusMessage} {reads : List Bytes}
    (h : reads.flatten = written (msgs ++ [last])) (s : State) :
    reads.foldl onReadyReadTcp s = last.state ↔
      ((heard (starts 0 (msgs ++ [last])) 0 reads).getLast?.map StatusMessage.state).getD s = last.state := by
  have hstate := @foldl_onReadyReadTcp (msgs ++ [last]) s reads 0 h
  rw [hstate]

/-- One read for each message. -/
theorem last_status_separate : [notifyClients .running, notifyClients .launched].foldl onReadyReadTcp .IDLE =
    .LAUNCHED := by
  have h : [notifyClients .running, notifyClients .launched].flatten = written ([.running] ++ [.launched]) := by
    decide +kernel
  exact (last_status_iff h .IDLE).mpr (by decide +kernel)

/-- Two messages in one read: the second is not heard. -/
theorem launched_not_heard : [written [.running, .launched]].flatten = written [.running, .launched] ∧
    [written [.running, .launched]].foldl onReadyReadTcp .IDLE = .RUNNING := by
  decide +kernel

end Gpgnet4TA.Talaunch
