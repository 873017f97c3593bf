import Gpgnet4TA.Lib.Walk
import Gpgnet4TA.Tafnet.GamePackets

/-!
# The walks over the headers of a buffer

The loops of the translater and of the parser go from header to header by the sizes that the
headers name. Here their rounds are seen as accesses of header fields: the translater reads the
size of whatever it finds, the parser reads a message's action string before it knows that there
is room for it.
-/

namespace Gpgnet4TA.Tafnet
open Gpgnet4TA.Lib Gpgnet4TA.Tapacket

namespace HeaderField

def size_and_token : Field := ⟨0, 4⟩
def family : Field := ⟨4, 2⟩
/-- The port and the IPv4 address. -/
def address : Field := ⟨6, 6⟩
def actionstring : Field := ⟨20, 4⟩
def command : Field := ⟨24, 2⟩

/-- The fields that `looksOk` reads: the token and the size only behind an `AF_INET`. -/
def looksOk (hdr : Bytes) : Option (List Field) := do
  let f ← u16At hdr 4
  return if f ≠ 2 then [family] else [family, size_and_token]

end HeaderField

/-! ### The rounds -/

/-- A round of `operator()` of the translater. A body whose addresses are not in memory has no
round. -/
def GameAddressTranslater.round (t : GameAddressTranslater) (buf : Bytes) : Option (Round Bytes) := do
  let ok ← DPHeader.looksOk buf
  let checked ← HeaderField.looksOk buf
  let (buf, _) ← t.translateMessage buf
  let size ← DPHeader.size buf
  let rewritten := if ok then [HeaderField.address, HeaderField.command] else []
  return ⟨HeaderField.size_and_token :: (checked ++ rewritten), some (size, buf.drop size)⟩

/-- A round of `parseGameData` on `len` bytes; what a message says does not matter for the next
one. -/
def parserRound (len : ℕ) (buf : Bytes) : Option (Round Bytes) := do
  let ok ← DPHeader.looksOk buf
  let checked ← HeaderField.looksOk buf
  if !ok ∧ 8 < len then return ⟨checked, none⟩
  else
    let actionstring ← DPHeader.actionstring buf
    let size ← DPHeader.size buf
    let command := if actionstring = playString then [HeaderField.command] else []
    return ⟨checked ++ HeaderField.actionstring :: HeaderField.size_and_token :: command,
      some (size, buf.drop size)⟩

/-- Both loops on a buffer and the memory behind it. -/
def HeadersInBounds (t : GameAddressTranslater) (data behind : Bytes) : Prop :=
  WalksInBounds t.round data.length (data ++ behind) ∧
    WalksInBounds (parserRound data.length) data.length (data ++ behind)

/-! ### The rounds are those of the loops -/

section rounds

variable {t : GameAddressTranslater} {buf : Bytes} {remaining fuel : ℕ}

theorem looksOk_fields {ok : Bool} (h : DPHeader.looksOk buf = some ok) :
    ∃ fields, HeaderField.looksOk buf = some fields ∧ HeaderField.family ∈ fields ∧
      (∀ f ∈ fields, f.offset + f.width ≤ 6) := by
  obtain ⟨f, hf, -⟩ := Option.bind_eq_some_iff.mp h
  refine ⟨_, by rw [HeaderField.looksOk, hf]; rfl, ?_⟩
  by_cases h2 : f = 2
  · rw [if_neg (not_not.mpr h2)]
    exact ⟨List.mem_cons_self, by decide⟩
  · rw [if_pos h2]
    exact ⟨List.mem_cons_self, by decide⟩

theorem size_of_looksOk (h : DPHeader.looksOk buf = some true) :
    ∃ size, DPHeader.size buf = some size ∧ sizeofDPHeader ≤ size := by
  obtain ⟨f, -, h⟩ := Option.bind_eq_some_iff.mp h
  split at h
  · cases h
  · obtain ⟨token, -, h⟩ := Option.bind_eq_some_iff.mp h
    obtain ⟨size, hsize, h⟩ := Option.bind_eq_some_iff.mp h
    exact ⟨size, hsize, (of_decide_eq_true (Option.some.inj h)).2⟩

/-- The translater's loop comes to its end exactly where the walk does. -/
theorem translateLoop_isSome_iff_walk :
    (t.translateLoop fuel remaining buf).isSome ↔ (walk t.round fuel remaining buf).isSome := by
  induction fuel generalizing remaining buf with
  | zero => rfl
  | succ fuel ih =>
    by_cases hremaining : remaining = 0
    · rw [GameAddressTranslater.translateLoop, walk, if_pos hremaining, if_pos hremaining]
      rfl
    · rw [GameAddressTranslater.translateLoop, if_neg hremaining]
      cases hok : DPHeader.looksOk buf with
      | none =>
        rw [walk, if_neg hremaining, GameAddressTranslater.round, GameAddressTranslater.translateMessage, hok]
        rfl
      | some ok =>
        obtain ⟨checked, hchecked, -⟩ := looksOk_fields hok
        cases hmessage : t.translateMessage buf with
        | none =>
          rw [walk, if_neg hremaining, GameAddressTranslater.round, hok, hchecked, hmessage]
          rfl
        | some message =>
          obtain ⟨buf', visits⟩ := message
          cases hsize : DPHeader.size buf' with
          | none =>
            simp only [walk, if_neg hremaining, GameAddressTranslater.round, hok, hchecked, hmessage, hsize,
              Option.bind_eq_bind, Option.bind_some, Option.bind_none]
            exact Iff.rfl
          | some size =>
            have hround : t.round buf = some ⟨HeaderField.size_and_token :: (checked ++
                if ok then [HeaderField.address, HeaderField.command] else []), some (size, buf'.drop size)⟩ := by
              simp only [GameAddressTranslater.round, hok, hchecked, hmessage, hsize, Option.bind_eq_bind,
                Option.bind_some]
              rfl
            rw [walk_goOn fuel hremaining hround rfl, Option.isSome_map, ← ih]
            simp only [Option.bind_eq_bind, Option.bind_some, hsize]
            cases t.translateLoop fuel (remaining - size) (buf'.drop size) <;> rfl

/-- Where the parser's loop comes to its end, so does the walk. -/
theorem walk_of_parseLoop {isLocalSource : Bool} {data : Bytes} {p p' : TAPacketParser}
    (h : TAPacketParser.parseLoop isLocalSource data fuel remaining buf p = some p') :
    (walk (parserRound data.length) fuel remaining buf).isSome := by
  induction fuel generalizing remaining buf p with
  | zero => cases h
  | succ fuel ih =>
    by_cases hremaining : remaining = 0
    · rw [walk, if_pos hremaining]
      rfl
    · rw [TAPacketParser.parseLoop, if_neg hremaining] at h
      obtain ⟨ok, hok, h⟩ := Option.bind_eq_some_iff.mp h
      obtain ⟨checked, hchecked, -⟩ := looksOk_fields hok
      split at h
      · rename_i hstop
        have hround : parserRound data.length buf = some ⟨checked, none⟩ := by
          simp only [parserRound, hok, hchecked, Option.bind_eq_bind, Option.bind_some]
          exact if_pos hstop
        rw [walk_leave fuel hremaining hround rfl]
        rfl
      · rename_i hstop
        obtain ⟨actionstring, hactionstring, h⟩ := Option.bind_eq_some_iff.mp h
        obtain ⟨size, hsize, h⟩ := Option.bind_eq_some_iff.mp h
        have hround : parserRound data.length buf = some ⟨checked ++ HeaderField.actionstring ::
            HeaderField.size_and_token :: if actionstring = playString then [HeaderField.command] else [],
            some (size, buf.drop size)⟩ := by
          simp only [parserRound, hok, hchecked, hactionstring, hsize, Option.bind_eq_bind, Option.bind_some]
          exact if_neg hstop
        rw [walk_goOn fuel hremaining hround rfl, Option.isSome_map]
        split at h
        · obtain ⟨q, -, h⟩ := Option.bind_eq_some_iff.mp h
          exact ih h
        · obtain ⟨payload, -, h⟩ := Option.bind_eq_some_iff.mp h
          obtain ⟨q, -, h⟩ := Option.bind_eq_some_iff.mp h
          exact ih h

end rounds

/-! ### What the translater writes -/

section writes

variable {t : GameAddressTranslater} {buf buf' : Bytes}

theorem translateReplyAddress_same {addr index : ℕ} (h : t.translateReplyAddress buf addr index = some buf') :
    SameOutside (addr ≤ ·) buf buf' := by
  obtain ⟨port, -, h⟩ := Option.bind_eq_some_iff.mp h
  exact (writeAddress_same h).mono fun i hi => by
    have hlow := hi.1
    omega

theorem translateSPA_same {addr n : ℕ} {visit : DPAddress × ℕ} (h : t.translateSPA buf addr n = some (buf', visit)) :
    SameOutside (addr ≤ ·) buf buf' := by
  obtain ⟨address, -, h⟩ := Option.bind_eq_some_iff.mp h
  split at h
  · obtain ⟨buf1, hwrite, h⟩ := Option.bind_eq_some_iff.mp h
    cases h
    exact (writeAddress_same hwrite).mono fun i hi => by
      have hlow := hi.1
      omega
  · obtain ⟨buf1, hreply, h⟩ := Option.bind_eq_some_iff.mp h
    cases h
    exact translateReplyAddress_same hreply

theorem translateSPAs_same {fuel addr n : ℕ} {visits visits' : GameAddressTranslater.Visits}
    (h : t.translateSPAs fuel addr n buf visits = some (buf', visits')) : SameOutside (addr ≤ ·) buf buf' := by
  induction fuel generalizing addr n buf visits with
  | zero => cases h
  | succ fuel ih =>
    obtain ⟨size, -, h⟩ := Option.bind_eq_some_iff.mp h
    split at h
    · obtain ⟨⟨buf1, visit⟩, hspa, h⟩ := Option.bind_eq_some_iff.mp h
      have hrest := (ih h).mono fun i (hi : addr + sizeofDPAddress ≤ i) => (by omega : addr ≤ i)
      exact (translateSPA_same hspa).trans hrest
    · cases h
      exact .refl _ _

theorem translatePlayers_same {fuel player n : ℕ} {visits visits' : GameAddressTranslater.Visits}
    (h : t.translatePlayers fuel player n buf visits = some (buf', visits')) :
    SameOutside (player ≤ ·) buf buf' := by
  induction fuel generalizing player n buf visits with
  | zero => cases h
  | succ fuel ih =>
    obtain ⟨count, -, h⟩ := Option.bind_eq_some_iff.mp h
    split at h
    · obtain ⟨⟨name, addr⟩, hplayer, h⟩ := Option.bind_eq_some_iff.mp h
      obtain ⟨⟨buf1, tcp⟩, htcp, h⟩ := Option.bind_eq_some_iff.mp h
      obtain ⟨⟨buf2, udp⟩, hudp, h⟩ := Option.bind_eq_some_iff.mp h
      obtain ⟨size, hsize, -⟩ := Option.bind_eq_some_iff.mp hplayer
      have hle := superPackedPlayer_le hsize hplayer
      have h1 := (translateSPA_same htcp).mono fun i (hi : addr ≤ i) => (by omega : player ≤ i)
      have h2 := (translateSPA_same hudp).mono fun i (hi : addr + sizeofDPAddress ≤ i) => (by omega : player ≤ i)
      have h3 := (ih h).mono fun i (hi : addr + 2 * sizeofDPAddress ≤ i) => (by omega : player ≤ i)
      exact (h1.trans h2).trans h3
    · cases h
      exact .refl _ _

theorem translateMessage_same {visits : GameAddressTranslater.Visits}
    (h : t.translateMessage buf = some (buf', visits)) : SameOutside (4 ≤ ·) buf buf' := by
  obtain ⟨ok, -, h⟩ := Option.bind_eq_some_iff.mp h
  split at h
  · obtain ⟨buf1, hreply, h⟩ := Option.bind_eq_some_iff.mp h
    obtain ⟨command, -, h⟩ := Option.bind_eq_some_iff.mp h
    refine (translateReplyAddress_same hreply).trans ?_
    split at h
    · obtain ⟨offset, -, h⟩ := Option.bind_eq_some_iff.mp h
      split at h
      · cases h
        exact .refl _ _
      · exact (translatePlayers_same h).mono fun i hi => by omega
    split at h
    · obtain ⟨size, -, h⟩ := Option.bind_eq_some_iff.mp h
      split at h
      · cases h
        exact .refl _ _
      · obtain ⟨short, -, h⟩ := Option.bind_eq_some_iff.mp h
        obtain ⟨long, -, h⟩ := Option.bind_eq_some_iff.mp h
        exact (translateSPAs_same h).mono fun i hi => by omega
    · cases h
      exact .refl _ _
  · cases h
    exact .refl _ _

theorem size_of_translateMessage {visits : GameAddressTranslater.Visits} {size : ℕ}
    (h : t.translateMessage buf = some (buf', visits)) (hsize : DPHeader.size buf = some size) :
    DPHeader.size buf' = some size := by
  obtain ⟨word, hword, rfl⟩ := Option.map_eq_some_iff.mp hsize
  have hkeep := (translateMessage_same h).agreesSelf.u32At hword fun i _ hi => by omega
  rw [DPHeader.size, hkeep, Option.map_some]

theorem size_of_size_translateMessage {visits : GameAddressTranslater.Visits} {size : ℕ}
    (h : t.translateMessage buf = some (buf', visits)) (hsize : DPHeader.size buf' = some size) :
    DPHeader.size buf = some size := by
  obtain ⟨word, hword, rfl⟩ := Option.map_eq_some_iff.mp hsize
  have hkeep := (translateMessage_same h).symm.agreesSelf.u32At hword fun i _ hi => by omega
  rw [DPHeader.size, hkeep, Option.map_some]

theorem translateMessage_of_not_looksOk (h : DPHeader.looksOk buf = some false) :
    t.translateMessage buf = some (buf, []) := by
  rw [GameAddressTranslater.translateMessage, h]
  rfl

end writes

/-! ### Headers in bounds -/

/-- What the translater comes to on its way: something with six bytes left whose size is not 0, or
a message with room for its command whose addresses are in memory. -/
inductive TranslaterPath (t : GameAddressTranslater) : ℕ → Bytes → Prop
  | finish (buf : Bytes) : TranslaterPath t 0 buf
  | other {remaining size : ℕ} {buf : Bytes} (hroom : 6 ≤ remaining) (hok : DPHeader.looksOk buf = some false)
      (hsize : DPHeader.size buf = some size) (hpos : 1 ≤ size)
      (hrest : TranslaterPath t (remaining - size) (buf.drop size)) : TranslaterPath t remaining buf
  | message {remaining size : ℕ} {buf buf' : Bytes} {visits : GameAddressTranslater.Visits}
      (hroom : 26 ≤ remaining) (hok : DPHeader.looksOk buf = some true) (hsize : DPHeader.size buf = some size)
      (hbody : t.translateMessage buf = some (buf', visits))
      (hrest : TranslaterPath t (remaining - size) (buf'.drop size)) : TranslaterPath t remaining buf

/-- What the parser comes to: messages with room for their action string, and for a command if
they are DirectPlay's own, and then the end or something else with six bytes left. -/
inductive ParserPath : ℕ → Bytes → Prop
  | finish (buf : Bytes) : ParserPath 0 buf
  | other {remaining : ℕ} {buf : Bytes} (hroom : 6 ≤ remaining) (hok : DPHeader.looksOk buf = some false) :
      ParserPath remaining buf
  | message {remaining size : ℕ} {buf actionstring : Bytes} (hok : DPHeader.looksOk buf = some true)
      (haction : DPHeader.actionstring buf = some actionstring)
      (hroom : (if actionstring = playString then 26 else 24) ≤ remaining)
      (hsize : DPHeader.size buf = some size) (hrest : ParserPath (remaining - size) (buf.drop size)) :
      ParserPath remaining buf

section paths

variable {t : GameAddressTranslater} {buf : Bytes} {remaining len : ℕ}

theorem round_inv {r : Round Bytes} (h : t.round buf = some r) :
    ∃ ok checked buf' visits size, DPHeader.looksOk buf = some ok ∧ HeaderField.looksOk buf = some checked ∧
      t.translateMessage buf = some (buf', visits) ∧ DPHeader.size buf = some size ∧
      r = ⟨HeaderField.size_and_token :: (checked ++ if ok then [HeaderField.address, HeaderField.command] else []),
        some (size, buf'.drop size)⟩ := by
  obtain ⟨ok, hok, h⟩ := Option.bind_eq_some_iff.mp h
  obtain ⟨checked, hchecked, h⟩ := Option.bind_eq_some_iff.mp h
  obtain ⟨⟨buf', visits⟩, hmessage, h⟩ := Option.bind_eq_some_iff.mp h
  obtain ⟨size, hsize, h⟩ := Option.bind_eq_some_iff.mp h
  cases h
  exact ⟨ok, checked, buf', visits, size, hok, hchecked, hmessage, size_of_size_translateMessage hmessage hsize, rfl⟩

theorem round_of {ok : Bool} {checked : List Field} {buf' : Bytes} {visits : GameAddressTranslater.Visits} {size : ℕ}
    (hok : DPHeader.looksOk buf = some ok) (hchecked : HeaderField.looksOk buf = some checked)
    (hmessage : t.translateMessage buf = some (buf', visits)) (hsize : DPHeader.size buf = some size) :
    t.round buf = some ⟨HeaderField.size_and_token :: (checked ++
      if ok then [HeaderField.address, HeaderField.command] else []), some (size, buf'.drop size)⟩ := by
  simp only [GameAddressTranslater.round, hok, hchecked, hmessage, size_of_translateMessage hmessage hsize,
    Option.bind_eq_bind, Option.bind_some]
  rfl

theorem translaterPath_of_path (h : Path t.round remaining buf) : TranslaterPath t remaining buf := by
  induction h with
  | finish buf => exact .finish buf
  | leave hround hin hnext =>
    obtain ⟨ok, checked, buf', visits, size, -, -, -, -, rfl⟩ := round_inv hround
    cases hnext
  | @goOn remaining step buf rest r hround hin hnext hrest ih =>
    obtain ⟨ok, checked, buf', visits, size, hok, hchecked, hmessage, hsize, rfl⟩ := round_inv hround
    obtain ⟨fields, hfields, hfamily, -⟩ := looksOk_fields hok
    cases hchecked.symm.trans hfields
    have hpos := hin.advance step rest hnext
    cases hnext
    cases ok with
    | false =>
      have hroom := hin.access HeaderField.family (List.mem_cons_of_mem _ (List.mem_append_left _ hfamily))
      rw [translateMessage_of_not_looksOk hok] at hmessage
      cases hmessage
      exact .other hroom hok hsize hpos ih
    | true =>
      have hroom := hin.access HeaderField.command
        (List.mem_cons_of_mem _ (List.mem_append_right _ (List.mem_cons_of_mem _ List.mem_cons_self)))
      exact .message hroom hok hsize hmessage ih

theorem path_of_translaterPath (h : TranslaterPath t remaining buf) : Path t.round remaining buf := by
  induction h with
  | finish buf => exact .finish buf
  | @other remaining size buf hroom hok hsize hpos hrest ih =>
    obtain ⟨checked, hchecked, -, hwidth⟩ := looksOk_fields hok
    refine .goOn (round_of hok hchecked (translateMessage_of_not_looksOk hok) hsize) ⟨?_, ?_⟩ rfl ih
    · intro f hf
      rcases List.mem_cons.mp hf with rfl | hf
      · exact le_trans (by decide) hroom
      · rw [if_neg Bool.false_ne_true, List.append_nil] at hf
        exact le_trans (hwidth f hf) hroom
    · intro step s hnext
      cases hnext
      exact hpos
  | @message remaining size buf buf' visits hroom hok hsize hbody hrest ih =>
    obtain ⟨checked, hchecked, -, hwidth⟩ := looksOk_fields hok
    obtain ⟨size', hsize', hheader⟩ := size_of_looksOk hok
    cases hsize.symm.trans hsize'
    refine .goOn (round_of hok hchecked hbody hsize) ⟨?_, ?_⟩ rfl ih
    · intro f hf
      rcases List.mem_cons.mp hf with rfl | hf
      · exact le_trans (by decide) hroom
      rcases List.mem_append.mp hf with hf | hf
      · exact le_trans (hwidth f hf) (by omega)
      · rw [if_pos rfl] at hf
        have hrewritten : f.offset + f.width ≤ 26 := by
          rcases List.mem_cons.mp hf with rfl | hf
          · decide
          · rw [List.mem_singleton.mp hf]
            decide
        exact hrewritten.trans hroom
    · intro step s hnext
      cases hnext
      exact le_trans (by decide) hheader

theorem parserRound_inv {r : Round Bytes} (h : parserRound len buf = some r) :
    ∃ ok checked, DPHeader.looksOk buf = some ok ∧ HeaderField.looksOk buf = some checked ∧
      ((ok = false ∧ 8 < len ∧ r = ⟨checked, none⟩) ∨
        ¬((!ok) = true ∧ 8 < len) ∧ ∃ actionstring size, DPHeader.actionstring buf = some actionstring ∧
          DPHeader.size buf = some size ∧ r = ⟨checked ++ HeaderField.actionstring :: HeaderField.size_and_token ::
            (if actionstring = playString then [HeaderField.command] else []), some (size, buf.drop size)⟩) := by
  obtain ⟨ok, hok, h⟩ := Option.bind_eq_some_iff.mp h
  obtain ⟨checked, hchecked, h⟩ := Option.bind_eq_some_iff.mp h
  refine ⟨ok, checked, hok, hchecked, ?_⟩
  split at h
  · rename_i hstop
    cases h
    exact .inl ⟨Bool.not_eq_true' _ |>.mp hstop.1, hstop.2, rfl⟩
  · rename_i hstop
    obtain ⟨actionstring, hactionstring, h⟩ := Option.bind_eq_some_iff.mp h
    obtain ⟨size, hsize, h⟩ := Option.bind_eq_some_iff.mp h
    cases h
    exact .inr ⟨hstop, actionstring, size, hactionstring, hsize, rfl⟩

theorem parserPath_of_path (h : Path (parserRound len) remaining buf) (hlen : remaining ≤ len) :
    remaining = 0 ∨ 8 < len ∧ ParserPath remaining buf := by
  induction h with
  | finish buf => exact .inl rfl
  | @leave remaining buf r hround hin hnext =>
    obtain ⟨ok, checked, hok, hchecked, hstop | ⟨-, actionstring, size, -, -, rfl⟩⟩ := parserRound_inv hround
    · obtain ⟨rfl, hlong, rfl⟩ := hstop
      obtain ⟨fields, hfields, hfamily, -⟩ := looksOk_fields hok
      cases hchecked.symm.trans hfields
      exact .inr ⟨hlong, .other (hin.access HeaderField.family hfamily) hok⟩
    · cases hnext
  | @goOn remaining step buf rest r hround hin hnext hrest ih =>
    obtain ⟨ok, checked, hok, hchecked, hstop | ⟨hgo, actionstring, size, haction, hsize, rfl⟩⟩ :=
      parserRound_inv hround
    · obtain ⟨-, -, rfl⟩ := hstop
      cases hnext
    · have hfar : 24 ≤ remaining :=
        hin.access HeaderField.actionstring (List.mem_append_right _ List.mem_cons_self)
      have htrue : ok = true := by
        cases ok with
        | false => exact absurd ⟨rfl, by omega⟩ hgo
        | true => rfl
      subst htrue
      have hroom : (if actionstring = playString then 26 else 24) ≤ remaining := by
        split
        · rename_i hplay
          rw [if_pos hplay] at hin
          exact hin.access HeaderField.command (List.mem_append_right _
            (List.mem_cons_of_mem _ (List.mem_cons_of_mem _ List.mem_cons_self)))
        · exact hfar
      have hrest' : ParserPath (remaining - step) rest := by
        rcases ih (by omega) with hzero | ⟨-, hrest⟩
        · rw [hzero]
          exact .finish rest
        · exact hrest
      cases hnext
      exact .inr ⟨by omega, .message hok haction hroom hsize hrest'⟩

theorem path_of_parserPath (hlong : 8 < len) (h : ParserPath remaining buf) :
    Path (parserRound len) remaining buf := by
  induction h with
  | finish buf => exact .finish buf
  | @other remaining buf hroom hok =>
    obtain ⟨checked, hchecked, -, hwidth⟩ := looksOk_fields hok
    have hround : parserRound len buf = some ⟨checked, none⟩ := by
      simp only [parserRound, hok, hchecked, Option.bind_eq_bind, Option.bind_some]
      exact if_pos ⟨rfl, hlong⟩
    exact .leave hround ⟨fun f hf => le_trans (hwidth f hf) hroom, fun _ _ hnext => nomatch hnext⟩ rfl
  | @message remaining size buf actionstring hok haction hroom hsize hrest ih =>
    obtain ⟨checked, hchecked, -, hwidth⟩ := looksOk_fields hok
    obtain ⟨size', hsize', hheader⟩ := size_of_looksOk hok
    cases hsize.symm.trans hsize'
    have hround : parserRound len buf = some ⟨checked ++ HeaderField.actionstring :: HeaderField.size_and_token ::
        (if actionstring = playString then [HeaderField.command] else []), some (size, buf.drop size)⟩ := by
      simp only [parserRound, hok, hchecked, haction, hsize, Option.bind_eq_bind, Option.bind_some]
      exact if_neg fun hstop => absurd hstop.1 (by decide)
    have hfar : 24 ≤ remaining := le_trans (by split <;> omega) hroom
    refine .goOn hround ⟨?_, ?_⟩ rfl ih
    · intro f hf
      rcases List.mem_append.mp hf with hf | hf
      · exact le_trans (hwidth f hf) (by omega)
      rcases List.mem_cons.mp hf with rfl | hf
      · exact hfar
      rcases List.mem_cons.mp hf with rfl | hf
      · exact le_trans (by decide) hfar
      split at hf
      · rename_i hplay
        rw [if_pos hplay] at hroom
        rw [List.mem_singleton.mp hf]
        exact hroom
      · cases hf
    · intro step s hnext
      cases hnext
      exact le_trans (by decide) hheader

/-- A buffer of whole messages has both. -/
theorem paths_of_messages (ht : t.WellSized) {ms : List Bytes} (hms : ∀ m ∈ ms, ∃ spas, AddressedMessage m spas)
    (behind : Bytes) : TranslaterPath t ms.flatten.length (ms.flatten ++ behind) ∧
      ParserPath ms.flatten.length (ms.flatten ++ behind) := by
  induction ms with
  | nil => exact ⟨.finish _, .finish _⟩
  | cons m ms ih =>
    obtain ⟨htranslater, hparser⟩ := ih fun x hx => hms x (List.mem_cons_of_mem _ hx)
    obtain ⟨spas, hm⟩ := hms m List.mem_cons_self
    have hlen := hm.length_ge
    have hagree : AgreesOutside (AddressFields spas) m (m ++ (ms.flatten ++ behind)) :=
      (SameOutside.refl (AddressFields spas) (m ++ (ms.flatten ++ behind))).agrees
    obtain ⟨hok, hsize, -⟩ := hm.header hagree
    obtain ⟨m', visits, hbody, hdone⟩ := GameAddressTranslater.translateMessage_spec hm ht (ms.flatten ++ behind)
    rw [List.flatten_cons, List.length_append, List.append_assoc]
    constructor
    · refine .message (by omega) hok hsize hbody ?_
      rw [Nat.add_sub_cancel_left, List.drop_left' hdone.same.length]
      exact htranslater
    · have haction : DPHeader.actionstring (m ++ (ms.flatten ++ behind)) = some ((m.drop 20).take 4) :=
        hm.actionstring hagree (sliceAt_eq_some.mpr ⟨by omega, rfl⟩)
      refine .message hok haction (by split <;> omega) hsize ?_
      rw [Nat.add_sub_cancel_left, List.drop_left]
      exact hparser

/-- A translater that does whatever another one does has its paths. -/
theorem TranslaterPath.extends {t' : GameAddressTranslater} (h : t.Extends t')
    (hpath : TranslaterPath t remaining buf) : TranslaterPath t' remaining buf := by
  induction hpath with
  | finish buf => exact .finish buf
  | other hroom hok hsize hpos _ ih => exact .other hroom hok hsize hpos ih
  | message hroom hok hsize hbody _ ih => exact .message hroom hok hsize (h.translateMessage hbody) ih

end paths

/-- Whole messages with their address data inside are walked in bounds, whatever the memory behind
them holds, by every translater that answers for the addresses beyond the second. -/
theorem headersInBounds_of_messages {t : GameAddressTranslater} (ht : t.Covers) {ms : List Bytes}
    (hms : ∀ m ∈ ms, DPHeader.looksOk m = some true ∧ DPHeader.size m = some m.length ∧
      ∃ spas, addressData m = some spas) (behind : Bytes) : HeadersInBounds t ms.flatten behind := by
  have haddressed : ∀ m ∈ ms, ∃ spas, AddressedMessage m spas := by
    intro m hm
    obtain ⟨hok, hsize, spas, hspas⟩ := hms m hm
    exact ⟨spas, hok, hsize, hspas⟩
  obtain ⟨htranslater, hparser⟩ :=
    paths_of_messages (GameAddressTranslater.wellSized_complete t) haddressed behind
  have hpath := htranslater.extends (GameAddressTranslater.complete_extends ht)
  refine ⟨walksInBounds_iff_path.mpr (path_of_translaterPath hpath), walksInBounds_iff_path.mpr ?_⟩
  cases ms with
  | nil => exact .finish _
  | cons m ms =>
    obtain ⟨spas, hm⟩ := haddressed m List.mem_cons_self
    have hlong : 8 < (m :: ms).flatten.length := by
      have hlen := hm.length_ge
      rw [List.flatten_cons, List.length_append]
      omega
    exact path_of_parserPath hlong hparser

/-- The loops end in bounds exactly on the buffers whose headers, as the loops find them one
behind the other, have room for what is looked at and a size to go on by. -/
theorem headers_in_bounds_iff (t : GameAddressTranslater) (data behind : Bytes) :
    HeadersInBounds t data behind ↔ TranslaterPath t data.length (data ++ behind) ∧
      (data = [] ∨ 8 < data.length ∧ ParserPath data.length (data ++ behind)) := by
  unfold HeadersInBounds
  rw [walksInBounds_iff_path, walksInBounds_iff_path, ← List.length_eq_zero_iff]
  constructor
  · intro h
    exact ⟨translaterPath_of_path h.1, parserPath_of_path h.2 (le_refl _)⟩
  · intro h
    refine ⟨path_of_translaterPath h.1, ?_⟩
    rcases h.2 with hempty | ⟨hlong, hpath⟩
    · rw [hempty]
      exact .finish _
    · exact path_of_parserPath hlong hpath

/-- Zeros, which may be the rest of a message, have the size 0; the loop stays where it is. -/
theorem zeros_not_in_bounds :
    ¬ HeadersInBounds ⟨0x7f000001, (47624, 2350), fun _ _ => none⟩ (List.replicate 28 0) [] := by
  intro h
  cases translaterPath_of_path (walksInBounds_iff_path.mp h.1) with
  | other hroom hok hsize hpos hrest =>
    have hzero : DPHeader.size (List.replicate 28 0 ++ []) = some 0 := by decide +kernel
    cases hzero.symm.trans hsize
    exact absurd hpos (by decide)
  | message hroom hok hsize hbody hrest =>
    have hother : DPHeader.looksOk (List.replicate 28 0 ++ []) = some false := by decide +kernel
    cases hother.symm.trans hok

end Gpgnet4TA.Tafnet
