import Gpgnet4TA.Tafnet.Translation

/-!
# Game packets under the translater (`GameAddressTranslater.cpp:30-121`)

The parser takes a message for a game packet when its action string is not "play"; the
translater does not look at the action string. The bytes of a game packet in the place of the
command decide whether some of the bytes behind them are taken for addresses.
-/

namespace Gpgnet4TA.Tafnet
open Gpgnet4TA.Lib Gpgnet4TA.Tapacket

/-- The action string of a game packet is a player's id. -/
def IsGamePacket (m : Bytes) : Prop := DPHeader.actionstring m ≠ some playString

instance : DecidablePred IsGamePacket := fun m => inferInstanceAs (Decidable (DPHeader.actionstring m ≠ _))

theorem leBytes_mod (n x : ℕ) : leBytes n (x % 256 ^ n) = leBytes n x := by
  have h := leBytes_leVal (leBytes n x)
  rwa [length_leBytes, leVal_leBytes] at h

namespace GameAddressTranslater

variable {t t' : GameAddressTranslater}

/-! ### Functions that decline -/

/-- Whatever one translater does, the other does. -/
structure Extends (t t' : GameAddressTranslater) : Prop where
  reply : ∀ buf buf', t.translateReplyAddress buf 4 0 = some buf' → t'.translateReplyAddress buf 4 0 = some buf'
  players : ∀ buf addr n r, t.translateSPA buf addr n = some r → t'.translateSPA buf addr n = some r

theorem Extends.translateSPAs (h : Extends t t') {fuel addr n : ℕ} {buf : Bytes} {visits : Visits}
    {r : Bytes × Visits} (hr : t.translateSPAs fuel addr n buf visits = some r) :
    t'.translateSPAs fuel addr n buf visits = some r := by
  induction fuel generalizing addr n buf visits with
  | zero => cases hr
  | succ fuel ih =>
    rw [GameAddressTranslater.translateSPAs] at hr ⊢
    obtain ⟨size, hsize, hr⟩ := Option.bind_eq_some_iff.mp hr
    rw [hsize, Option.bind_eq_bind, Option.bind_some]
    split at hr
    · rename_i hlt
      obtain ⟨⟨buf1, visit⟩, hspa, hr⟩ := Option.bind_eq_some_iff.mp hr
      rw [if_pos hlt, h.players _ _ _ _ hspa]
      exact ih hr
    · rename_i hge
      rw [if_neg hge]
      exact hr

theorem Extends.translatePlayers (h : Extends t t') {fuel player n : ℕ} {buf : Bytes} {visits : Visits}
    {r : Bytes × Visits} (hr : t.translatePlayers fuel player n buf visits = some r) :
    t'.translatePlayers fuel player n buf visits = some r := by
  induction fuel generalizing player n buf visits with
  | zero => cases hr
  | succ fuel ih =>
    rw [GameAddressTranslater.translatePlayers] at hr ⊢
    obtain ⟨count, hcount, hr⟩ := Option.bind_eq_some_iff.mp hr
    rw [hcount, Option.bind_eq_bind, Option.bind_some]
    split at hr
    · rename_i hlt
      obtain ⟨⟨name, addr⟩, hplayer, hr⟩ := Option.bind_eq_some_iff.mp hr
      obtain ⟨⟨buf1, tcp⟩, htcp, hr⟩ := Option.bind_eq_some_iff.mp hr
      obtain ⟨⟨buf2, udp⟩, hudp, hr⟩ := Option.bind_eq_some_iff.mp hr
      simp only [if_pos hlt, hplayer, h.players _ _ _ _ htcp, h.players _ _ _ _ hudp, Option.bind_eq_bind,
        Option.bind_some]
      exact ih hr
    · rename_i hge
      rw [if_neg hge]
      exact hr

theorem Extends.translateSuperEnumPlayersReply (h : Extends t t') {buf : Bytes} {r : Bytes × Visits}
    (hr : t.translateSuperEnumPlayersReply buf = some r) : t'.translateSuperEnumPlayersReply buf = some r := by
  rw [GameAddressTranslater.translateSuperEnumPlayersReply] at hr ⊢
  obtain ⟨offset, hoffset, hr⟩ := Option.bind_eq_some_iff.mp hr
  rw [hoffset, Option.bind_eq_bind, Option.bind_some]
  split at hr
  · rename_i hzero
    rw [if_pos hzero]
    exact hr
  · rename_i hne
    rw [if_neg hne]
    exact h.translatePlayers hr

theorem Extends.translateForwardOrCreateRequest (h : Extends t t') {buf : Bytes} {r : Bytes × Visits}
    (hr : t.translateForwardOrCreateRequest buf = some r) : t'.translateForwardOrCreateRequest buf = some r := by
  rw [GameAddressTranslater.translateForwardOrCreateRequest] at hr ⊢
  obtain ⟨size, hsize, hr⟩ := Option.bind_eq_some_iff.mp hr
  rw [hsize, Option.bind_eq_bind, Option.bind_some]
  split at hr
  · rename_i hzero
    rw [if_pos hzero]
    exact hr
  · rename_i hne
    obtain ⟨short, hshort, hr⟩ := Option.bind_eq_some_iff.mp hr
    obtain ⟨long, hlong, hr⟩ := Option.bind_eq_some_iff.mp hr
    simp only [if_neg hne, hshort, hlong, Option.bind_some]
    exact h.translateSPAs hr

theorem Extends.translateMessage (h : Extends t t') {buf : Bytes} {r : Bytes × Visits}
    (hr : t.translateMessage buf = some r) : t'.translateMessage buf = some r := by
  rw [GameAddressTranslater.translateMessage] at hr ⊢
  obtain ⟨ok, hok, hr⟩ := Option.bind_eq_some_iff.mp hr
  rw [hok, Option.bind_eq_bind, Option.bind_some]
  split at hr
  · rename_i htrue
    obtain ⟨buf1, hreply, hr⟩ := Option.bind_eq_some_iff.mp hr
    obtain ⟨command, hcommand, hr⟩ := Option.bind_eq_some_iff.mp hr
    simp only [if_pos htrue, h.reply _ _ hreply, hcommand, Option.bind_eq_bind, Option.bind_some]
    split at hr
    · rename_i hc
      rw [if_pos hc]
      exact h.translateSuperEnumPlayersReply hr
    rename_i hc
    rw [if_neg hc]
    split at hr
    · rename_i hc
      rw [if_pos hc]
      exact h.translateForwardOrCreateRequest hr
    · rename_i hc
      rw [if_neg hc]
      exact hr
  · rename_i hfalse
    rw [if_neg hfalse]
    exact hr

theorem Extends.translateLoop (h : Extends t t') {fuel remaining : ℕ} {buf : Bytes} {r : Bytes × Visits}
    (hr : t.translateLoop fuel remaining buf = some r) : t'.translateLoop fuel remaining buf = some r := by
  induction fuel generalizing remaining buf r with
  | zero => cases hr
  | succ fuel ih =>
    rw [GameAddressTranslater.translateLoop] at hr ⊢
    split at hr
    · rename_i hzero
      rw [if_pos hzero]
      exact hr
    · rename_i hne
      obtain ⟨⟨buf1, visits⟩, hmessage, hr⟩ := Option.bind_eq_some_iff.mp hr
      obtain ⟨size, hsize, hr⟩ := Option.bind_eq_some_iff.mp hr
      obtain ⟨⟨rest, visits'⟩, hrest, hr⟩ := Option.bind_eq_some_iff.mp hr
      simp only [if_neg hne, h.translateMessage hmessage, hsize, ih hrest, Option.bind_eq_bind, Option.bind_some]
      exact hr

theorem Extends.translate (h : Extends t t') {data : Bytes} {r : Bytes × Visits}
    (hr : t.translate data = some r) : t'.translate data = some r := by
  obtain ⟨⟨buf, visits⟩, hloop, hr⟩ := Option.bind_eq_some_iff.mp hr
  rw [GameAddressTranslater.translate, h.translateLoop hloop]
  exact hr

/-- The address as its fields hold it. -/
def clip (a : DPAddress) : DPAddress := ⟨a.address % 2 ^ 32, a.port % 2 ^ 16⟩

theorem writeAddress_clip (buf : Bytes) (ofs : ℕ) (a : DPAddress) :
    writeAddress buf ofs (clip a) = writeAddress buf ofs a := by
  have hport := leBytes_mod 2 a.port
  have haddress := leBytes_mod 4 a.address
  rw [writeAddress, writeAddress, beBytes, beBytes, beBytes, beBytes]
  norm_num at hport haddress
  rw [clip]
  norm_num
  rw [hport, haddress]

/-- The translater whose function gives the reply address itself instead of declining. -/
def complete (t : GameAddressTranslater) : GameAddressTranslater where
  replyAddress := t.replyAddress % 2 ^ 32
  replyPorts := (t.replyPorts.1 % 2 ^ 16, t.replyPorts.2 % 2 ^ 16)
  translatePlayerSPA a index :=
    some (clip ((t.translatePlayerSPA a index).getD ⟨t.replyAddress, (t.replyPort index).getD 0⟩))

theorem wellSized_complete (t : GameAddressTranslater) : t.complete.WellSized where
  replyAddress := Nat.mod_lt _ (by norm_num)
  replyPort := Nat.mod_lt _ (by norm_num)
  players := fun _ _ _ => ⟨_, rfl, Nat.mod_lt _ (by norm_num), Nat.mod_lt _ (by norm_num)⟩

theorem translateReplyAddress_complete (t : GameAddressTranslater) (buf : Bytes) :
    t.complete.translateReplyAddress buf 4 0 = t.translateReplyAddress buf 4 0 :=
  writeAddress_clip buf 4 ⟨t.replyAddress, t.replyPorts.1⟩

/-- There is a reply port for the first and the second address; the function answers for the rest. -/
def Covers (t : GameAddressTranslater) : Prop :=
  ∀ a index, 2 ≤ index → ∃ a', t.translatePlayerSPA a index = some a'

theorem translateSPA_complete {buf : Bytes} {addr n : ℕ} {x : DPAddress} (hx : readAddress buf addr = some x)
    (h : (∃ y, t.translatePlayerSPA x n = some y) ∨ ∃ port, t.replyPort n = some port) :
    t.complete.translateSPA buf addr n = t.translateSPA buf addr n := by
  rw [translateSPA, translateSPA, hx]
  simp only [complete, writeAddress_clip, Option.bind_eq_bind, Option.bind_some]
  cases hy : t.translatePlayerSPA x n with
  | some y => rfl
  | none =>
    rcases h with ⟨y, hy'⟩ | ⟨port, hport⟩
    · rw [hy] at hy'
      cases hy'
    · simp only [translateReplyAddress, hport, Option.getD_none, Option.getD_some, Option.bind_eq_bind,
        Option.bind_some]

theorem extends_complete (t : GameAddressTranslater) : Extends t t.complete where
  reply buf buf' h := (translateReplyAddress_complete t buf).trans h
  players buf addr n r h := by
    obtain ⟨x, hx, h'⟩ := Option.bind_eq_some_iff.mp h
    rw [translateSPA_complete hx]
    · exact h
    · cases hy : t.translatePlayerSPA x n with
      | some y => exact Or.inl ⟨y, rfl⟩
      | none =>
        rw [hy] at h'
        obtain ⟨buf', hreply, -⟩ := Option.bind_eq_some_iff.mp h'
        obtain ⟨port, hport, -⟩ := Option.bind_eq_some_iff.mp hreply
        exact Or.inr ⟨port, hport⟩

theorem complete_extends (ht : t.Covers) : Extends t.complete t where
  reply buf buf' h := (translateReplyAddress_complete t buf).symm.trans h
  players buf addr n r h := by
    obtain ⟨x, hx, -⟩ := Option.bind_eq_some_iff.mp h
    rw [← translateSPA_complete hx]
    · exact h
    · match n with
      | 0 => exact Or.inr ⟨_, rfl⟩
      | 1 => exact Or.inr ⟨_, rfl⟩
      | n + 2 => exact Or.inl (ht x (n + 2) (by omega))

/-! ### Buffers of messages -/

/-- The address data that the translater finds lie inside the messages, and in game packets it
finds none. -/
def GamePacketsPlain (ms : List Bytes) : Prop :=
  ∀ m ∈ ms, ∃ spas, addressData m = some spas ∧ (IsGamePacket m → spas = [])

/-- What becomes of a message: of a game packet, only the address and the port of the header change. -/
def LeftAlone (m m' : Bytes) : Prop :=
  m'.length = m.length ∧ (IsGamePacket m → SameOutside (Range 6 6) m m')

/-- Whenever the translation has a result, the game packets of the buffer are left alone. -/
def LeavesGamePackets (t : GameAddressTranslater) (ms : List Bytes) : Prop :=
  ∀ data visits, t.translate ms.flatten = some (data, visits) →
    ∃ ms', data = ms'.flatten ∧ List.Forall₂ LeftAlone ms ms'

theorem exists_rewritten (ht : t.WellSized) {ms : List Bytes} (hms : ∀ m ∈ ms, ∃ spas, AddressedMessage m spas) :
    ∃ ms' visits, t.translate ms.flatten = some (ms'.flatten, visits) ∧
      List.Forall₂ (fun m m' => ∀ spas, addressData m = some spas → Rewritten t spas m m') ms ms' := by
  have hlists : ∃ ms', List.Forall₂ t.Becomes ms ms' ∧
      List.Forall₂ (fun m m' => ∀ spas, addressData m = some spas → Rewritten t spas m m') ms ms' := by
    induction ms with
    | nil => exact ⟨[], .nil, .nil⟩
    | cons m ms ih =>
      obtain ⟨spas, hm⟩ := hms m List.mem_cons_self
      obtain ⟨m', hbecomes, hrewritten⟩ := becomes hm ht
      obtain ⟨ms', h1, h2⟩ := ih fun m hm => hms m (List.mem_cons_of_mem _ hm)
      refine ⟨m' :: ms', .cons hbecomes h1, .cons (fun spas' hspas' => ?_) h2⟩
      obtain rfl := Option.some.inj (hm.addresses.symm.trans hspas')
      exact hrewritten
  obtain ⟨ms', hbecomes, hrewritten⟩ := hlists
  obtain ⟨visits, htranslate⟩ := translate_becomes hbecomes
  exact ⟨ms', visits, htranslate, hrewritten⟩

theorem Rewritten.plain {m m' : Bytes} (h : Rewritten t [] m m') : SameOutside (Range 6 6) m m' := by
  refine h.same.mono fun i hi => ?_
  rcases hi with hr | ⟨s, hs, -⟩
  · exact hr
  · cases hs

theorem leftAlone_of_rewritten {ms ms' : List Bytes} (hplain : GamePacketsPlain ms)
    (h : List.Forall₂ (fun m m' => ∀ spas, addressData m = some spas → Rewritten t spas m m') ms ms') :
    List.Forall₂ LeftAlone ms ms' := by
  induction h with
  | nil => exact .nil
  | cons hm _ ih =>
    obtain ⟨spas, hspas, hpacket⟩ := hplain _ List.mem_cons_self
    have hrewritten := hm spas hspas
    refine .cons ⟨hrewritten.same.length, fun hgame => ?_⟩ (ih fun m hm => hplain m (List.mem_cons_of_mem _ hm))
    obtain rfl := hpacket hgame
    exact hrewritten.plain

/-- Every port is changed. -/
def portChanger : GameAddressTranslater :=
  ⟨0, (0, 0), fun a _ => some ⟨a.address % 2 ^ 32, (a.port + 1) % 2 ^ 16⟩⟩

theorem wellSized_portChanger : portChanger.WellSized where
  replyAddress := by norm_num [portChanger]
  replyPort := by norm_num [portChanger]
  players := fun _ _ _ => ⟨_, rfl, Nat.mod_lt _ (by norm_num), Nat.mod_lt _ (by norm_num)⟩

theorem eq_nil_of_leftAlone {m m' : Bytes} {spas : List (ℕ × ℕ)} (hm : AddressedMessage m spas)
    (h : Rewritten portChanger spas m m') (hsame : SameOutside (Range 6 6) m m') : spas = [] := by
  cases spas with
  | nil => rfl
  | cons s spas =>
    obtain ⟨x, y, hx, hy, hread⟩ := h.players s List.mem_cons_self
    have hbound := (hm.bound s List.mem_cons_self).1
    have hx' := readAddress_agree hsame.agreesSelf hx fun i hi _ hr => by have := hr.2; omega
    obtain rfl := Option.some.inj (hx'.symm.trans hread)
    have hport : (x.port + 1) % 2 ^ 16 = x.port := congrArg DPAddress.port (Option.some.inj hy)
    have hlt := port_lt_of_readAddress hx
    omega

theorem plain_of_leftAlone {ms ms' ms'' : List Bytes} (hms : ∀ m ∈ ms, ∃ spas, AddressedMessage m spas)
    (h : List.Forall₂ (fun m m' => ∀ spas, addressData m = some spas → Rewritten portChanger spas m m') ms ms')
    (hleft : List.Forall₂ LeftAlone ms ms'') (hsame : ms'.flatten = ms''.flatten) :
    ∀ m ∈ ms, IsGamePacket m → addressData m = some [] := by
  induction h generalizing ms'' with
  | nil => exact fun m hm => by cases hm
  | @cons m m' ms ms' hrewritten _ ih =>
    cases hleft with
    | @cons _ m'' _ ms'' hm'' hrest =>
      obtain ⟨spas, hm⟩ := hms m List.mem_cons_self
      have hrw := hrewritten spas hm.addresses
      rw [List.flatten_cons, List.flatten_cons] at hsame
      obtain ⟨rfl, htail⟩ := List.append_inj hsame (hrw.same.length.trans hm''.1.symm)
      intro q hq hgame
      rcases List.mem_cons.mp hq with rfl | hq
      · rw [hm.addresses, eq_nil_of_leftAlone hm hrw (hm''.2 hgame)]
      · exact ih (fun m hm => hms m (List.mem_cons_of_mem _ hm)) hrest htail q hq hgame

/-- Game packets without address data are left alone whatever the function does, and of messages
with all their address data inside only those are. -/
theorem leaves_game_packets {ms : List Bytes}
    (hms : ∀ m ∈ ms, DPHeader.looksOk m = some true ∧ DPHeader.size m = some m.length) :
    (GamePacketsPlain ms → ∀ t : GameAddressTranslater,
      (t.Covers → ∃ r, t.translate ms.flatten = some r) ∧ t.LeavesGamePackets ms) ∧
    ((∀ m ∈ ms, ∃ spas, addressData m = some spas) → (∀ t : GameAddressTranslater, t.LeavesGamePackets ms) →
      GamePacketsPlain ms) := by
  have haddressed : (∀ m ∈ ms, ∃ spas, addressData m = some spas) → ∀ m ∈ ms, ∃ spas, AddressedMessage m spas := by
    intro hdata m hm
    obtain ⟨spas, hspas⟩ := hdata m hm
    exact ⟨spas, (hms m hm).1, (hms m hm).2, hspas⟩
  constructor
  · intro hplain t
    have hall := haddressed fun m hm => by obtain ⟨spas, hspas, -⟩ := hplain m hm; exact ⟨spas, hspas⟩
    obtain ⟨ms', visits, htranslate, hrewritten⟩ := exists_rewritten (wellSized_complete t) hall
    constructor
    · exact fun ht => ⟨_, (complete_extends ht).translate htranslate⟩
    · intro data visits' hdata
      have hsame := (extends_complete t).translate hdata
      obtain ⟨rfl, -⟩ := Prod.mk.inj (Option.some.inj (htranslate.symm.trans hsame))
      exact ⟨ms', rfl, leftAlone_of_rewritten hplain hrewritten⟩
  · intro hdata hleaves
    have hall := haddressed hdata
    obtain ⟨ms', visits, htranslate, hrewritten⟩ := exists_rewritten wellSized_portChanger hall
    obtain ⟨ms'', hsame, hleft⟩ := hleaves portChanger _ _ htranslate
    intro m hm
    obtain ⟨spas, hspas⟩ := hdata m hm
    refine ⟨spas, hspas, fun hgame => ?_⟩
    exact Option.some.inj (hspas.symm.trans (plain_of_leftAlone hall hrewritten hleft hsame m hm hgame))

/-- A message of player 1 whose payload begins with `first` and has the number 16 where a create
request has the size of its address data. -/
def gamePacket (first : Byte) : Bytes :=
  [112, 0, 0xb0, 0xfa, 2, 0, 0x08, 0xfc, 127, 0, 0, 1, 0, 0, 0, 0, 0, 0, 0, 0] ++ [1, 0, 0, 0] ++
    [first, 0, 0, 0] ++ List.replicate 40 0 ++ [16, 0, 0, 0] ++ List.replicate 40 0

/-- A message of player 1 that looks like a super enum reply of no players, with an odd offset. -/
def emptyReply : Bytes :=
  [64, 0, 0xb0, 0xfa, 2, 0, 0x08, 0xfc, 127, 0, 0, 1, 0, 0, 0, 0, 0, 0, 0, 0] ++ [1, 0, 0, 0] ++
    [0x29, 0, 0, 0] ++ List.replicate 8 0 ++ [1, 0, 0, 0] ++ List.replicate 24 0

theorem leaves_game_packets_create :
    (∀ t : GameAddressTranslater,
      t.LeavesGamePackets [gamePacket 0x2c, emptyReply, TafnetGameNode.createPlayer]) ∧
      ¬ ∀ t : GameAddressTranslater, t.LeavesGamePackets [gamePacket 0x2e] := by
  have hdata : addressData (gamePacket 0x2e) = some [(96, 0)] := by decide +kernel
  constructor
  · refine fun t => ((leaves_game_packets (by decide +kernel)).1 ?_ t).2
    intro m hm
    rcases List.mem_cons.mp hm with rfl | hm
    · exact ⟨[], by decide +kernel, fun _ => rfl⟩
    rcases List.mem_cons.mp hm with rfl | hm
    · exact ⟨[], by decide +kernel, fun _ => rfl⟩
    · rw [List.mem_singleton.mp hm]
      exact ⟨[(96, 0), (112, 1)], by decide +kernel,
        fun hgame => absurd TafnetGameNode.controlMessage_createPlayer.actionstring hgame⟩
  · intro hleaves
    have hplain := (leaves_game_packets (by decide +kernel)).2 ?_ hleaves
    · obtain ⟨spas, hspas, hnil⟩ := hplain _ List.mem_cons_self
      have hgame : IsGamePacket (gamePacket 0x2e) := by decide +kernel
      rw [hnil hgame, hdata] at hspas
      cases hspas
    · intro m hm
      rw [List.mem_singleton.mp hm]
      exact ⟨_, hdata⟩

/-- Every address becomes that of the local host with the port 2350. -/
def localHost : GameAddressTranslater := ⟨0, (0, 0), fun _ _ => some ⟨0x7f000001, 2350⟩⟩

/-- A game packet whose player id and payload look like a forward request: six bytes of its payload
are taken for a port and an address. -/
theorem game_packet_rewritten : DPHeader.looksOk (gamePacket 0x2e) = some true ∧
    DPHeader.size (gamePacket 0x2e) = some (gamePacket 0x2e).length ∧ IsGamePacket (gamePacket 0x2e) ∧
    (localHost.translate (gamePacket 0x2e)).map (fun r => (r.1.drop 98).take 6) = some [9, 46, 127, 0, 0, 1] ∧
    ¬ localHost.LeavesGamePackets [gamePacket 0x2e] := by
  have hgame : IsGamePacket (gamePacket 0x2e) := by decide +kernel
  have hbytes : (localHost.translate (gamePacket 0x2e)).map (fun r => (r.1.drop 98).take 6) =
      some [9, 46, 127, 0, 0, 1] := by
    decide +kernel
  refine ⟨by decide +kernel, by decide +kernel, hgame, hbytes, fun hleaves => ?_⟩
  obtain ⟨⟨data, visits⟩, hdata, htake⟩ := Option.map_eq_some_iff.mp hbytes
  obtain ⟨ms', rfl, hleft⟩ := hleaves data visits (by rw [List.flatten_singleton]; exact hdata)
  cases hleft with
  | @cons _ m' _ ms' hm' hrest =>
    cases hrest
    have hbyte := (hm'.2 hgame).bytes 98 fun hr => by have := hr.2; omega
    rw [List.flatten_singleton] at htake
    have hfirst : m'[98]? = some 9 := by
      have h := congrArg (fun bs : Bytes => bs[0]?) htake
      simpa [List.getElem?_take, List.getElem?_drop] using h
    rw [hfirst] at hbyte
    revert hbyte
    decide +kernel

end GameAddressTranslater

end Gpgnet4TA.Tafnet
