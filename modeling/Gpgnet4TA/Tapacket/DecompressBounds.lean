import Gpgnet4TA.Tapacket.TPacket

/-!
# What `decompress` reads (`TPacket.cpp:154-205`)

The same loops with every access checked: `none` says that one leaves the input or the output, or
that an index is taken from a smaller one. They tell which of the three exits is taken.
-/

namespace Gpgnet4TA.Tapacket
open Gpgnet4TA.Lib

/-! ### The loops -/

/-- The loops end at a terminator, where bytes are missing for the next item, or with a group. -/
inductive DecompressExit where
  | terminator (result : Bytes)
  | ranOut (result : Bytes)
  | boundary (index : ℕ) (result : Bytes)

def DecompressExit.result : DecompressExit → Bytes
  | .terminator result => result
  | .ranOut result => result
  | .boundary _ result => result

/-- The loop over `b`. -/
def copyChecked : ℕ → ℕ → Bytes → Option Bytes
  | 0, _, result => some result
  | n + 1, b, result =>
    if b ≤ result.length then
      -- `b-1`
      if b = 0 then none
      else do
        let x ← result[b - 1]?
        copyChecked n (b + 1) (result ++ [x])
    else copyChecked n (b + 1) (result ++ [0])

/-- The loop over `nump`. -/
def itemsChecked (data : Bytes) (headerSize cbf : ℕ) : ℕ → ℕ → ℕ → Bytes → Option DecompressExit
  | 0, _, index, result => some (.boundary index result)
  | fuel + 1, nump, index, result =>
    if data.length ≤ index then some (.ranOut (result.set 0 0x04))
    else if (cbf >>> nump) % 2 = 0 then do
      let x ← data[index]?
      itemsChecked data headerSize cbf fuel (nump + 1) (index + 1) (result ++ [x])
    else do
      let uop ← u16At data index
      if uop / 16 = 0 then return .terminator result
      else
        let result ← copyChecked (uop % 16 + 2) (uop / 16 + headerSize) result
        itemsChecked data headerSize cbf fuel (nump + 1) (index + 2) result

def loopChecked (data : Bytes) (headerSize : ℕ) : ℕ → ℕ → Bytes → Option DecompressExit
  | 0, _, _ => none
  | fuel + 1, index, result =>
    if index < data.length then do
      let cbf ← data[index]?
      match ← itemsChecked data headerSize cbf.toNat 8 0 (index + 1) result with
      | .boundary index result => loopChecked data headerSize fuel index result
      | exit => return exit
    else some (.boundary index result)

def decompressChecked (data : Bytes) (headerSize fuel : ℕ) : Option DecompressExit := do
  let header ← sliceAt data 0 headerSize
  loopChecked data headerSize fuel headerSize (header.set 0 0x03)

/-- The output is complete, or it is marked. -/
def DecompressExit.Good : DecompressExit → Prop
  | .terminator _ => True
  | .ranOut result => result.head? = some 0x04
  | .boundary _ _ => False

/-- The loops end in bounds, at a terminator or with a result that is marked, and this is what
`decompress` returns. -/
def DecompressInBounds (data : Bytes) (headerSize : ℕ) : Prop :=
  ∃ fuel exit, decompressChecked data headerSize fuel = some exit ∧
    decompress data headerSize = some exit.result ∧ exit.Good

/-! ### The condition -/

/-- What is left of a stream, before the item `nump` of a group with the flags `cbf`, comes to the
terminator, or ends before an item that is not the first of its group. -/
inductive EndsWell : ℕ → ℕ → Bytes → Prop
  | missing {cbf nump : ℕ} (hnump : nump < 8) : EndsWell cbf nump []
  | terminator {cbf nump : ℕ} {x y : Byte} {rest : Bytes} (hnump : nump < 8) (hbit : (cbf >>> nump) % 2 ≠ 0)
      (hoffset : leVal [x, y] / 16 = 0) : EndsWell cbf nump (x :: y :: rest)
  | literal {cbf nump : ℕ} {x : Byte} {rest : Bytes} (hnump : nump < 8) (hbit : (cbf >>> nump) % 2 = 0)
      (hrest : EndsWell cbf (nump + 1) rest) : EndsWell cbf nump (x :: rest)
  | copy {cbf nump : ℕ} {x y : Byte} {rest : Bytes} (hnump : nump < 8) (hbit : (cbf >>> nump) % 2 ≠ 0)
      (hoffset : leVal [x, y] / 16 ≠ 0) (hrest : EndsWell cbf (nump + 1) rest) : EndsWell cbf nump (x :: y :: rest)
  | group {cbf : ℕ} {f : Byte} {rest : Bytes} (hrest : EndsWell f.toNat 0 rest) : EndsWell cbf 8 (f :: rest)

/-- The stream behind the header: groups of a flag byte and up to eight items. -/
def WellEnded (stream : Bytes) : Prop := EndsWell 0 8 stream

/-! ### One group -/

section items

variable {data result result' : Bytes} {headerSize cbf fuel nump index : ℕ}

theorem copyChecked_eq (n : ℕ) {b : ℕ} (hb : 1 ≤ b) (result : Bytes) :
    copyChecked n b result = some (copyLoop n b result) := by
  induction n generalizing b result with
  | zero => rfl
  | succ n ih =>
    by_cases hle : b ≤ result.length
    · have hget : result[b - 1]? = some (result.getD (b - 1) 0) := by
        rw [List.getD_eq_getElem?_getD, List.getElem?_eq_getElem (by omega), Option.getD_some]
      rw [copyChecked, if_pos hle, if_neg (by omega), hget, Option.bind_eq_bind, Option.bind_some, ih (by omega),
        copyLoop, if_pos hle]
    · rw [copyChecked, if_neg hle, ih (by omega), copyLoop, if_neg hle]

theorem copyLoop_ne_nil (n b : ℕ) (h : result ≠ []) : copyLoop n b result ≠ [] := by
  induction n generalizing b result with
  | zero => exact h
  | succ n ih => exact ih (b + 1) (List.append_ne_nil_of_left_ne_nil h _)

theorem head?_set_zero {x : Byte} (h : result ≠ []) : (result.set 0 x).head? = some x := by
  obtain ⟨y, result, rfl⟩ := List.exists_cons_of_ne_nil h
  rfl

theorem u16At_of_drop {x y : Byte} {rest : Bytes} (h : data.drop index = x :: y :: rest) :
    u16At data index = some (leVal [x, y]) := by
  have hlen := congrArg List.length h
  rw [List.length_drop, List.length_cons, List.length_cons] at hlen
  rw [u16At, sliceAt, if_pos (by omega), h]
  rfl

/-- What the exit of a group's items says of the stream. -/
def ExitTold (data : Bytes) (cbf nump index : ℕ) : Option DecompressExit → Prop
  | none => ¬ EndsWell cbf nump (data.drop index)
  | some (.terminator _) => EndsWell cbf nump (data.drop index)
  | some (.ranOut result) => EndsWell cbf nump (data.drop index) ∧ result.head? = some 0x04
  | some (.boundary next result) =>
    index ≤ next ∧ result ≠ [] ∧ (EndsWell cbf nump (data.drop index) ↔ EndsWell cbf 8 (data.drop next))

theorem ExitTold.step {exit : Option DecompressExit} {index' : ℕ} (h : ExitTold data cbf (nump + 1) index' exit)
    (hindex : index ≤ index')
    (hstep : EndsWell cbf nump (data.drop index) ↔ EndsWell cbf (nump + 1) (data.drop index')) :
    ExitTold data cbf nump index exit := by
  match exit with
  | none => exact fun hends => h (hstep.mp hends)
  | some (.terminator _) => exact hstep.mpr h
  | some (.ranOut result) => exact ⟨hstep.mpr h.1, h.2⟩
  | some (.boundary next result) => exact ⟨hindex.trans h.1, h.2.1, hstep.trans h.2.2⟩

theorem itemsChecked_told (hheader : 1 ≤ headerSize) (hnump : nump + fuel = 8) (hresult : result ≠ []) :
    ExitTold data cbf nump index (itemsChecked data headerSize cbf fuel nump index result) := by
  induction fuel generalizing nump index result with
  | zero =>
    obtain rfl : nump = 8 := hnump
    exact ⟨le_rfl, hresult, Iff.rfl⟩
  | succ fuel ih =>
    have hlt : nump < 8 := by omega
    rw [itemsChecked]
    by_cases hend : data.length ≤ index
    · rw [if_pos hend]
      have hnil : data.drop index = [] := List.drop_eq_nil_of_le hend
      exact ⟨hnil ▸ .missing hlt, head?_set_zero hresult⟩
    rw [if_neg hend]
    obtain ⟨x, rest, hx⟩ : ∃ x rest, data.drop index = x :: rest :=
      ⟨data[index], data.drop (index + 1), List.drop_eq_getElem_cons (by omega)⟩
    have hget : data[index]? = some x := by
      rw [← List.head?_drop, hx]
      rfl
    have hone : data.drop (index + 1) = rest := by
      rw [← List.drop_drop, hx]
      rfl
    by_cases hbit : (cbf >>> nump) % 2 = 0
    · rw [if_pos hbit, hget, Option.bind_eq_bind, Option.bind_some]
      refine (ih (by omega) (List.append_ne_nil_of_left_ne_nil hresult _)).step (by omega) ?_
      rw [hx, hone]
      constructor
      · intro h
        cases h with
        | terminator _ hset _ => exact absurd hbit hset
        | literal _ _ hrest => exact hrest
        | copy _ hset _ _ => exact absurd hbit hset
        | group _ => omega
      · exact .literal hlt hbit
    rw [if_neg hbit]
    cases rest with
    | nil =>
      have hcut : u16At data index = none := by
        have hlen := congrArg List.length hx
        rw [List.length_drop, List.length_singleton] at hlen
        rw [u16At, sliceAt, if_neg (by omega)]
        rfl
      rw [hcut]
      show ¬ EndsWell cbf nump (data.drop index)
      rw [hx]
      intro h
      cases h with
      | literal _ hclear _ => exact hbit hclear
      | group _ => omega
    | cons y rest =>
      rw [u16At_of_drop hx, Option.bind_eq_bind, Option.bind_some]
      have htwo : data.drop (index + 2) = rest := by
        rw [← List.drop_drop, hx]
        rfl
      by_cases hoffset : leVal [x, y] / 16 = 0
      · rw [if_pos hoffset]
        show EndsWell cbf nump (data.drop index)
        rw [hx]
        exact .terminator hlt hbit hoffset
      · rw [if_neg hoffset, copyChecked_eq _ (by omega)]
        refine (ih (by omega) (copyLoop_ne_nil _ _ hresult)).step (by omega) ?_
        rw [hx, htwo]
        constructor
        · intro h
          cases h with
          | terminator _ _ hzero => exact absurd hzero hoffset
          | literal _ hclear _ => exact absurd hclear hbit
          | copy _ _ _ hrest => exact hrest
          | group _ => omega
        · exact .copy hlt hbit hoffset

/-- The items of the source, on a string that ends with a zero. -/
def DecompressExit.items : DecompressExit → ItemsResult
  | .terminator result => .done result
  | .ranOut result => .done result
  | .boundary index result => .next index result

theorem decompressItems_of_checked {exit : DecompressExit} (hheader : 1 ≤ headerSize)
    (h : itemsChecked data headerSize cbf fuel nump index result = some exit) :
    decompressItems (data ++ [0]) data.length headerSize cbf fuel nump index result = some exit.items := by
  induction fuel generalizing nump index result with
  | zero =>
    cases h
    rfl
  | succ fuel ih =>
    rw [itemsChecked] at h
    rw [decompressItems]
    split at h
    · rename_i hend
      rw [if_pos hend]
      cases h
      rfl
    rename_i hend
    rw [if_neg hend]
    split at h
    · rename_i hbit
      obtain ⟨x, hx, h⟩ := Option.bind_eq_some_iff.mp h
      have hget : (data ++ [0]).getD index 0 = x := by
        rw [List.getD_eq_getElem?_getD, List.getElem?_append_left (by omega), hx, Option.getD_some]
      rw [if_pos hbit, hget]
      exact ih h
    · rename_i hbit
      obtain ⟨uop, huop, h⟩ := Option.bind_eq_some_iff.mp h
      rw [if_neg hbit, u16At_extend huop]
      dsimp only
      split at h
      · rename_i hoffset
        rw [if_pos hoffset]
        cases h
        rfl
      · rename_i hoffset
        rw [copyChecked_eq _ (by omega)] at h
        rw [if_neg hoffset]
        exact ih h

end items

/-! ### The whole stream -/

section stream

variable {data result : Bytes} {headerSize fuel index : ℕ} {exit : DecompressExit}

theorem loop_of_checked (hheader : 1 ≤ headerSize)
    (h : loopChecked data headerSize fuel index result = some exit) :
    decompressLoop (data ++ [0]) data.length headerSize fuel index result = some exit.result := by
  induction fuel generalizing index result with
  | zero => cases h
  | succ fuel ih =>
    rw [loopChecked] at h
    rw [decompressLoop]
    split at h
    · rename_i hlt
      obtain ⟨cbf, hcbf, h⟩ := Option.bind_eq_some_iff.mp h
      obtain ⟨first, hfirst, h⟩ := Option.bind_eq_some_iff.mp h
      have hget : (data ++ [0]).getD index 0 = cbf := by
        rw [List.getD_eq_getElem?_getD, List.getElem?_append_left (by omega), hcbf, Option.getD_some]
      rw [if_pos hlt, hget, decompressItems_of_checked hheader hfirst]
      cases first with
      | terminator result =>
        cases h
        rfl
      | ranOut result =>
        cases h
        rfl
      | boundary next result => exact ih h
    · rename_i hlt
      rw [if_neg hlt]
      cases h
      rfl

theorem endsWell_of_loop (hheader : 1 ≤ headerSize) (hresult : result ≠ [])
    (h : loopChecked data headerSize fuel index result = some exit) (hgood : exit.Good) (cbf : ℕ) :
    EndsWell cbf 8 (data.drop index) := by
  induction fuel generalizing index result cbf with
  | zero => cases h
  | succ fuel ih =>
    rw [loopChecked] at h
    split at h
    · obtain ⟨f, hf, h⟩ := Option.bind_eq_some_iff.mp h
      obtain ⟨first, hfirst, h⟩ := Option.bind_eq_some_iff.mp h
      have htold : ExitTold data f.toNat 0 (index + 1) (some first) := hfirst ▸ itemsChecked_told hheader rfl hresult
      have hsplit : data.drop index = f :: data.drop (index + 1) := by
        obtain ⟨hlt, rfl⟩ := List.getElem?_eq_some_iff.mp hf
        exact List.drop_eq_getElem_cons hlt
      rw [hsplit]
      refine .group ?_
      cases first with
      | terminator result => exact htold
      | ranOut result => exact htold.1
      | boundary next result => exact htold.2.2.mpr (ih htold.2.1 h f.toNat)
    · cases h
      exact hgood.elim

theorem loop_of_endsWell (hheader : 1 ≤ headerSize) (hresult : result ≠ []) {cbf : ℕ}
    (h : EndsWell cbf 8 (data.drop index)) (hfuel : data.length < index + fuel) :
    ∃ exit, loopChecked data headerSize fuel index result = some exit ∧ exit.Good := by
  induction fuel generalizing index result cbf with
  | zero =>
    rw [List.drop_eq_nil_of_le (by omega)] at h
    cases h
    omega
  | succ fuel ih =>
    generalize hs : data.drop index = s at h
    cases h with
    | missing hlt => omega
    | terminator hlt => omega
    | literal hlt => omega
    | copy hlt => omega
    | @group _ f rest hrest =>
      have hlen := congrArg List.length hs
      rw [List.length_drop, List.length_cons] at hlen
      have hget : data[index]? = some f := by
        rw [← List.head?_drop, hs]
        rfl
      have hdrop : data.drop (index + 1) = rest := by
        rw [← List.drop_drop, hs]
        rfl
      have htold : ExitTold data f.toNat 0 (index + 1) (itemsChecked data headerSize f.toNat 8 0 (index + 1) result) :=
        itemsChecked_told hheader rfl hresult
      rw [← hdrop] at hrest
      rw [loopChecked, if_pos (by omega), hget, Option.bind_eq_bind, Option.bind_some]
      cases hitems : itemsChecked data headerSize f.toNat 8 0 (index + 1) result with
      | none =>
        rw [hitems] at htold
        exact absurd hrest htold
      | some first =>
        rw [hitems] at htold
        cases first with
        | terminator result => exact ⟨_, rfl, trivial⟩
        | ranOut result => exact ⟨_, rfl, htold.2⟩
        | boundary next result =>
          obtain ⟨hnext, hresult', hiff⟩ := htold
          exact ih hresult' (hiff.mp hrest) (by omega)

end stream

/-- The decompression stays in bounds and tells a complete stream from one that is cut, exactly if
the stream comes to its terminator or ends inside a group, between two items. -/
theorem decompress_in_bounds_iff {data : Bytes} {headerSize : ℕ} (hcode : data.head? = some 0x04)
    (hheader : headerSize = 1 ∨ headerSize = 3) (hlen : headerSize ≤ data.length) (hmax : data.length < 2 ^ 32) :
    DecompressInBounds data headerSize ↔ WellEnded (data.drop headerSize) := by
  have hpos : 1 ≤ headerSize := by omega
  have hslice : sliceAt data 0 headerSize = some (data.take headerSize) := by
    rw [sliceAt, if_pos (by omega), List.drop_zero]
  have hne : (data.take headerSize).set 0 0x03 ≠ [] := by
    intro hnil
    have hlength := congrArg List.length hnil
    rw [List.length_set, List.length_take, List.length_nil] at hlength
    omega
  constructor
  · intro h
    obtain ⟨fuel, exit, hrun, -, hgood⟩ := h
    rw [decompressChecked, hslice] at hrun
    exact endsWell_of_loop hpos hne hrun hgood 0
  · intro h
    obtain ⟨exit, hrun, hgood⟩ := loop_of_endsWell hpos hne h
      (by omega : data.length < headerSize + (data.length + 1))
    refine ⟨data.length + 1, exit, by rw [decompressChecked, hslice]; exact hrun, ?_, hgood⟩
    have hhead : (data ++ [0]).head? = some 0x04 := by
      rw [List.head?_append, hcode]
      rfl
    have hslice' : sliceAt (data ++ [0]) 0 headerSize = some (data.take headerSize) := sliceAt_extend hslice [0]
    rw [decompress, unsigned_of_lt hmax, decompressN, hhead, hslice']
    dsimp only
    rw [if_neg (by decide), Option.bind_some]
    exact loop_of_checked hpos hrun

/-- A literal and the terminator. -/
theorem decompress_in_bounds_literal : DecompressInBounds [0x04, 0x02, 0x61, 0x00, 0x00] 1 := by
  have hended : WellEnded [0x02, 0x61, 0x00, 0x00] :=
    .group (.literal (by decide) (by decide) (.terminator (by decide) (by decide) rfl))
  exact (decompress_in_bounds_iff rfl (.inl rfl) (by decide) (by decide)).mpr hended

/-- The second byte of a copy is missing. -/
theorem decompress_copy_cut : ¬ ∀ (data : Bytes) (headerSize : ℕ), data.head? = some 0x04 →
    headerSize = 1 ∨ headerSize = 3 → headerSize ≤ data.length → DecompressInBounds data headerSize := by
  intro h
  obtain ⟨fuel, exit, hrun, -, -⟩ := h [0x04, 0x01, 0x10] 1 rfl (.inl rfl) (by decide)
  cases fuel with
  | zero => cases hrun
  | succ fuel => cases hrun

end Gpgnet4TA.Tapacket
