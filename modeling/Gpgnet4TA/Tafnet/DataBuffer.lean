import Gpgnet4TA.Lib.Bytes

/-!
# Payloads and data buffers of a tafnet node (`TafnetNode.cpp:25-133`)

A `DataBuffer` is used on both ends of a connection: `push_back`/`ackData`/`get`
on the sending side, `insert`/`pop`/`readyRead` on the receiving side. Sequence
numbers are `std::uint32_t` and start at 1.
-/

namespace Gpgnet4TA.Tafnet
open Gpgnet4TA.Lib

/-! ### Action codes (`TafnetNode.h:27-46`) -/

def ACTION_UDP_DATA : ℕ := 2
def ACTION_TCP_OPEN : ℕ := 3
def ACTION_TCP_CLOSE : ℕ := 4
def ACTION_TCP_DATA : ℕ := 5
def ACTION_TCP_ACK : ℕ := 6
def ACTION_TCP_RESEND : ℕ := 7
def ACTION_MORE : ℕ := 8
def ACTION_ENUM : ℕ := 9
def ACTION_UDP_PROTECTED : ℕ := 10
def ACTION_PACKSIZE_TEST : ℕ := 11
def ACTION_PACKSIZE_ACK : ℕ := 12
def ACTION_HELLO : ℕ := 13

/-- A payload that has been `set`. The default-constructed payload with a null
buffer, which `get` and `pop` return for "nothing there", is `none` in the model. -/
structure Payload where
  action : ℕ
  buf : Bytes
  timestamp : ℤ
  deriving DecidableEq

/-- What a payload says to the other end: its action and its bytes. -/
abbrev Fragment := ℕ × Bytes

def Payload.fragment (p : Payload) : Fragment := (p.action, p.buf)

/-- `Payload::set`; the action is a `std::uint8_t`. -/
def Payload.set (now : ℤ) (action : ℕ) (data : Bytes) : Payload := ⟨action % 256, data, now⟩

structure DataBuffer where
  data : Std.ExtTreeMap ℕ Payload
  nextPopSeq : ℕ
  nextPushSeq : ℕ

namespace DataBuffer

/-- `++seq` on a `std::uint32_t`. -/
def succSeq (seq : ℕ) : ℕ := (seq + 1) % 2 ^ 32

def new : DataBuffer := ⟨∅, 1, 1⟩

def insert (b : DataBuffer) (now : ℤ) (seq action : ℕ) (data : Bytes) : DataBuffer :=
  if b.nextPopSeq ≤ seq then { b with data := b.data.insert seq (Payload.set now action data) }
  else b

/-- `push_back`: the sequence number used, and the new buffer. -/
def pushBack (b : DataBuffer) (now : ℤ) (action : ℕ) (data : Bytes) : ℕ × DataBuffer :=
  (b.nextPushSeq,
    { b with
      data := b.data.insert b.nextPushSeq (Payload.set now action data)
      nextPushSeq := succSeq b.nextPushSeq })

/-- `m_data.begin()`. -/
def begin? (b : DataBuffer) : Option (ℕ × Payload) := b.data.toList.head?

def readyRead (b : DataBuffer) : Bool := b.begin?.any fun kp => b.nextPopSeq == kp.1

/-- `pop`: the first payload if it is the expected one. -/
def pop (b : DataBuffer) : Option Payload × DataBuffer :=
  match b.begin? with
  | none => (none, b)
  | some (seq, p) =>
    if b.nextPopSeq = seq then
      (some p, { b with data := b.data.erase seq, nextPopSeq := succSeq b.nextPopSeq })
    else (none, b)

/-- `ackData`: whether something was erased, and the new buffer. -/
def ackData (b : DataBuffer) (seq : ℕ) : Bool × DataBuffer :=
  (b.data.contains seq, { b with data := b.data.erase seq })

def get (b : DataBuffer) (seq : ℕ) : Option Payload := b.data[seq]?

def empty (b : DataBuffer) : Bool := b.data.isEmpty

/-- `earliestAvailable` (only called on a buffer that is not empty). -/
def earliestAvailable (b : DataBuffer) : ℕ := b.begin?.elim 0 Prod.fst

/-- The fragment stored under a sequence number. -/
def fragmentAt (b : DataBuffer) (seq : ℕ) : Option Fragment := (b.get seq).map Payload.fragment

/-! ### What the operations do to the stored fragments -/

@[simp] theorem fragmentAt_new (seq : ℕ) : new.fragmentAt seq = none := by
  simp [fragmentAt, get, new]

theorem fragmentAt_insert (b : DataBuffer) (now : ℤ) (seq action : ℕ) (data : Bytes) (k : ℕ) :
    (b.insert now seq action data).fragmentAt k =
      if b.nextPopSeq ≤ seq ∧ seq = k then some (action % 256, data) else b.fragmentAt k := by
  unfold insert
  by_cases hle : b.nextPopSeq ≤ seq
  · rw [if_pos hle]
    by_cases hk : seq = k
    · subst hk
      simp [fragmentAt, get, hle, Payload.set, Payload.fragment]
    · simp [fragmentAt, get, hk, Std.ExtTreeMap.getElem?_insert]
  · simp [hle]

@[simp] theorem nextPopSeq_insert (b : DataBuffer) (now : ℤ) (seq action : ℕ) (data : Bytes) :
    (b.insert now seq action data).nextPopSeq = b.nextPopSeq := by
  unfold insert
  split <;> rfl

theorem fragmentAt_pushBack (b : DataBuffer) (now : ℤ) (action : ℕ) (data : Bytes) (k : ℕ) :
    (b.pushBack now action data).2.fragmentAt k =
      if b.nextPushSeq = k then some (action % 256, data) else b.fragmentAt k := by
  by_cases hk : b.nextPushSeq = k
  · simp [pushBack, fragmentAt, get, hk, Payload.set, Payload.fragment]
  · simp [pushBack, fragmentAt, get, hk, Std.ExtTreeMap.getElem?_insert]

theorem fragmentAt_ackData (b : DataBuffer) (seq k : ℕ) :
    (b.ackData seq).2.fragmentAt k = if seq = k then none else b.fragmentAt k := by
  by_cases hk : seq = k
  · simp [ackData, fragmentAt, get, hk]
  · simp [ackData, fragmentAt, get, hk, Std.ExtTreeMap.getElem?_erase]

/-- The payload at the front of the buffer is stored under its key. -/
theorem get_of_begin? {b : DataBuffer} {seq : ℕ} {p : Payload} (h : b.begin? = some (seq, p)) :
    b.get seq = some p := by
  have hm : (seq, p) ∈ b.data.toList := List.mem_of_mem_head? h
  exact Std.ExtTreeMap.mem_toList_iff_getElem?_eq_some.mp hm

theorem begin?_le {b : DataBuffer} {seq k : ℕ} {p q : Payload} (h : b.begin? = some (seq, p))
    (hk : b.get k = some q) : seq ≤ k := by
  have hm : (k, q) ∈ b.data.toList := Std.ExtTreeMap.mem_toList_iff_getElem?_eq_some.mpr hk
  have hs := Std.ExtTreeMap.ordered_keys_toList (t := b.data)
  unfold begin? at h
  cases hl : b.data.toList with
  | nil => simp [hl] at hm
  | cons x rest =>
    rw [hl] at h hm hs
    have hx : x = (seq, p) := by simpa using h
    rcases List.mem_cons.mp hm with hm | hm
    · rw [hx] at hm
      exact le_of_eq (congrArg Prod.fst hm).symm
    · have hlt := (List.pairwise_cons.mp hs).1 (k, q) hm
      rw [hx] at hlt
      exact le_of_lt (Nat.compare_eq_lt.mp hlt)

/-- The payload with the least number is at the front. -/
theorem begin?_of_least {b : DataBuffer} {seq : ℕ} {p : Payload} (hp : b.get seq = some p)
    (hnone : ∀ k, k < seq → b.get k = none) : b.begin? = some (seq, p) := by
  cases h : b.begin? with
  | none =>
    have hnil : b.data.toList = [] := List.head?_eq_none_iff.mp h
    have hm : (seq, p) ∈ b.data.toList := Std.ExtTreeMap.mem_toList_iff_getElem?_eq_some.mpr hp
    simp [hnil] at hm
  | some kp =>
    obtain ⟨k, q⟩ := kp
    have hle := begin?_le h hp
    have hq := get_of_begin? h
    have hk : k = seq := by
      by_contra hne
      rw [hnone k (by omega)] at hq
      cases hq
    subst hk
    rw [hp] at hq
    rw [Option.some.inj hq]

theorem readyRead_iff (b : DataBuffer) :
    b.readyRead = true ↔ ∃ p, b.begin? = some (b.nextPopSeq, p) := by
  unfold readyRead
  cases h : b.begin? with
  | none => simp
  | some kp =>
    obtain ⟨k, p⟩ := kp
    constructor
    · intro hk
      have he : b.nextPopSeq = k := by simpa using hk
      exact ⟨p, by rw [he]⟩
    · intro hx
      obtain ⟨q, hq⟩ := hx
      have he : k = b.nextPopSeq := congrArg Prod.fst (Option.some.inj hq)
      simp [he]

/-- A buffer that holds its next sequence number and nothing before it is ready. -/
theorem readyRead_of_get {b : DataBuffer} {p : Payload} (hp : b.get b.nextPopSeq = some p)
    (hmin : ∀ k q, b.get k = some q → b.nextPopSeq ≤ k) : b.readyRead = true := by
  rw [readyRead_iff]
  cases h : b.begin? with
  | none =>
    have hnil : b.data.toList = [] := List.head?_eq_none_iff.mp h
    have hm : (b.nextPopSeq, p) ∈ b.data.toList :=
      Std.ExtTreeMap.mem_toList_iff_getElem?_eq_some.mpr hp
    simp [hnil] at hm
  | some kp =>
    obtain ⟨k, q⟩ := kp
    have h1 := begin?_le h hp
    have h2 := hmin k q (get_of_begin? h)
    exact ⟨q, by rw [show k = b.nextPopSeq by omega]⟩

/-- `pop` on a buffer that is ready. -/
theorem pop_of_readyRead {b : DataBuffer} (h : b.readyRead = true) :
    ∃ p, b.get b.nextPopSeq = some p ∧
      b.pop = (some p, { b with
        data := b.data.erase b.nextPopSeq, nextPopSeq := succSeq b.nextPopSeq }) := by
  obtain ⟨p, hp⟩ := b.readyRead_iff.mp h
  exact ⟨p, get_of_begin? hp, by simp [pop, hp]⟩

theorem pop_of_not_readyRead {b : DataBuffer} (h : b.readyRead = false) : b.pop = (none, b) := by
  unfold readyRead at h
  unfold pop
  cases hb : b.begin? with
  | none => rfl
  | some kp =>
    have hne : ¬ b.nextPopSeq = kp.1 := by simpa [hb] using h
    simp [hne]

theorem size_pos_of_readyRead {b : DataBuffer} (h : b.readyRead = true) :
    b.data.contains b.nextPopSeq = true ∧ 0 < b.data.size := by
  obtain ⟨p, hget, -⟩ := pop_of_readyRead h
  have hmem : b.data.contains b.nextPopSeq = true := by
    rw [Std.ExtTreeMap.contains_eq_isSome_getElem?]
    exact Option.isSome_of_eq_some hget
  refine ⟨hmem, Nat.pos_of_ne_zero ?_⟩
  intro h0
  rw [← Std.ExtTreeMap.eq_empty_iff_size_eq_zero] at h0
  rw [h0] at hmem
  simp at hmem

theorem size_of_pop {b b' : DataBuffer} {p : Payload} (h : b.pop = (some p, b')) :
    b'.data.size + 1 = b.data.size := by
  have hready : b.readyRead = true := by
    by_contra hn
    rw [pop_of_not_readyRead (by simpa using hn)] at h
    cases h
  obtain ⟨q, -, hpop⟩ := pop_of_readyRead hready
  rw [hpop] at h
  cases h
  obtain ⟨hmem, hpos⟩ := size_pos_of_readyRead hready
  simp only [Std.ExtTreeMap.size_erase, if_pos hmem]
  omega

end DataBuffer

end Gpgnet4TA.Tafnet
