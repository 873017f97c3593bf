import Gpgnet4TA.Tafnet.PortRouting
import Gpgnet4TA.Tapacket.ControlMessage

/-!
# What the address translation does to control messages

The translater changes the address of the header and the players' addresses of a well-formed
message, each as its function says, and nothing else; what it does to a message does not depend
on what comes behind it. So two translations, one at each end, compose address by address.
-/

namespace Gpgnet4TA.Tafnet
open Gpgnet4TA.Lib Gpgnet4TA.Tapacket

namespace GameAddressTranslater

/-- Every address gets a translation, and what is written fits its fields. -/
structure WellSized (t : GameAddressTranslater) : Prop where
  replyAddress : t.replyAddress < 2 ^ 32
  replyPort : t.replyPorts.1 < 2 ^ 16
  players : ∀ a index, a.port < 2 ^ 16 →
    ∃ a', t.translatePlayerSPA a index = some a' ∧ a'.address < 2 ^ 32 ∧ a'.port < 2 ^ 16

section spas

variable {t : GameAddressTranslater} {m buf buf1 buf' : Bytes} {spas : List (ℕ × ℕ)}

theorem translateSPA_spec (ht : t.WellSized) {addr index : ℕ} {x : DPAddress}
    (hx : readAddress buf addr = some x) :
    ∃ buf' y, t.translateSPA buf addr index = some (buf', (x, index)) ∧
      t.translatePlayerSPA x index = some y ∧ SameOutside (Range (addr + 2) 6) buf buf' ∧
        readAddress buf' addr = some y := by
  obtain ⟨y, hy, haddress, hport⟩ := ht.players x index (port_lt_of_readAddress hx)
  obtain ⟨port, ipv4, -, hipv4, -⟩ := readAddress_inv hx
  have hle := (sliceAt_eq_some.mp hipv4).1
  obtain ⟨buf', hw⟩ := @writeAddress_of buf addr (by omega) y
  refine ⟨buf', y, ?_, hy, writeAddress_same hw, writeAddress_read hw haddress hport⟩
  simp only [translateSPA, hx, hy, hw, Option.bind_eq_bind, Option.bind_some]
  rfl

/-- The addresses at `spas`, as they are in `m`, are translated, and nothing else changes. -/
structure Translated (t : GameAddressTranslater) (m : Bytes) (spas : List (ℕ × ℕ)) (buf buf' : Bytes) :
    Prop where
  same : SameOutside (fun i => ∃ s ∈ spas, Range (s.1 + 2) 6 i) buf buf'
  players : ∀ s ∈ spas, ∃ x y, readAddress m s.1 = some x ∧ t.translatePlayerSPA x s.2 = some y ∧
    readAddress buf' s.1 = some y

theorem Translated.nil (t : GameAddressTranslater) (m buf : Bytes) : Translated t m [] buf buf :=
  ⟨.refl _ _, fun s hs => by cases hs⟩

theorem Translated.cons {addr index : ℕ} {x y : DPAddress} (hx : readAddress m addr = some x)
    (hy : t.translatePlayerSPA x index = some y) (hsame : SameOutside (Range (addr + 2) 6) buf buf1)
    (hread : readAddress buf1 addr = some y) (h : Translated t m spas buf1 buf')
    (hspas : ∀ s ∈ spas, addr + 16 ≤ s.1) : Translated t m ((addr, index) :: spas) buf buf' := by
  constructor
  · refine (hsame.mono fun i hi => ?_).trans (h.same.mono fun i hi => ?_)
    · exact ⟨_, List.mem_cons_self, hi⟩
    · obtain ⟨s, hs, hi⟩ := hi
      exact ⟨s, List.mem_cons_of_mem _ hs, hi⟩
  · intro s hs
    rcases List.mem_cons.mp hs with rfl | hs
    · refine ⟨x, y, hx, hy, readAddress_agree h.same.agreesSelf hread ?_⟩
      intro i _ hi hgiven
      obtain ⟨s, hs, hr⟩ := hgiven
      have := hspas s hs
      have := hr.1
      omega
    · exact h.players s hs

/-- The loop over the packed players. `W` is where the buffer differs from the message already. -/
theorem translatePlayers_spec (ht : t.WellSized) {n player : ℕ} {more : Bytes} {W : ℕ → Prop}
    (h : playerData m n player = some spas)
    (hsame : SameOutside W (m ++ more) buf) (hW : ∀ i, W i → (i < 28 ∨ 32 ≤ i) ∧ i < player)
    {k fuel : ℕ} (hcount : u32At m 28 = some (k + n)) (hfuel : n < fuel) (visits : Visits) :
    ∃ buf' visits', t.translatePlayers fuel player k buf visits = some (buf', visits') ∧
      Translated t m spas buf buf' := by
  induction n generalizing player spas buf W k fuel visits with
  | zero =>
    cases h
    obtain ⟨fuel, rfl⟩ : ∃ f, fuel = f + 1 := ⟨fuel - 1, by omega⟩
    have hr := hsame.agrees.u32At hcount fun i hi hi' hw => by have := (hW i hw).1; omega
    refine ⟨buf, visits, ?_, .nil t m buf⟩
    simp only [translatePlayers, hr, Option.bind_eq_bind, Option.bind_some, add_zero, lt_irrefl, if_false]
    rfl
  | succ n ih =>
    obtain ⟨name, addr, rest, hp, hge, hbehind, hle, hrest, rfl⟩ := playerData_succ h
    obtain ⟨fuel, rfl⟩ : ∃ f, fuel = f + 1 := ⟨fuel - 1, by omega⟩
    have hagree := hsame.agrees
    have hr1 := hagree.u32At hcount fun i hi hi' hw => by have := (hW i hw).1; omega
    have hr2 := superPackedPlayer_frame hagree hp
      fun i hi _ hw => by have := (hW i hw).2; omega
    -- the two addresses, in the message and in the buffer
    obtain ⟨x0, hx0⟩ := @readAddress_of m addr (by omega)
    obtain ⟨x1, hx1⟩ := @readAddress_of m (addr + 16) (by omega)
    have hx0' := readAddress_agree hagree hx0 fun i hi hi' hw => by have := (hW i hw).2; omega
    obtain ⟨buf1, y0, ht0, hy0, hsame0, hread0⟩ := @translateSPA_spec t buf ht addr 0 x0 hx0'
    have hx1' : readAddress buf1 (addr + 16) = some x1 := by
      refine readAddress_agree hsame0.agreesSelf ?_ fun i hi hi' hr => by have := hr.2; omega
      exact readAddress_agree hagree hx1 fun i hi hi' hw => by have := (hW i hw).2; omega
    obtain ⟨buf2, y1, ht1, hy1, hsame1, hread1⟩ := @translateSPA_spec t buf1 ht (addr + 16) 1 x1 hx1'
    have hsame2 : SameOutside (fun i => W i ∨ Range (addr + 2) 6 i ∨ Range (addr + 16 + 2) 6 i)
        (m ++ more) buf2 :=
      (hsame.mono fun i hi => Or.inl hi).trans
        ((hsame0.mono fun i hi => Or.inr (Or.inl hi)).trans (hsame1.mono fun i hi => Or.inr (Or.inr hi)))
    have hW2 : ∀ i, (W i ∨ Range (addr + 2) 6 i ∨ Range (addr + 16 + 2) 6 i) →
        (i < 28 ∨ 32 ≤ i) ∧ i < addr + 32 := by
      intro i hx
      obtain hw | hr | hr := hx
      · have := hW i hw
        omega
      · have := hr.1
        have := hr.2
        omega
      · have := hr.1
        have := hr.2
        omega
    have hcount2 : u32At m 28 = some (k + 1 + n) := by
      rw [hcount]
      congr 1
      omega
    obtain ⟨buf', visits', hloop, hdone⟩ :=
      ih hrest hsame2 hW2 hcount2 (show n < fuel by omega) (visits ++ [(x0, 0), (x1, 1)])
    refine ⟨buf', visits', ?_, ?_⟩
    · simp only [translatePlayers, hr1, Option.bind_eq_bind, Option.bind_some,
        if_pos (show k < k + (n + 1) by omega), hr2, ht0, sizeofDPAddress, ht1]
      exact hloop
    · have hbound := playerData_bound hrest
      refine .cons hx0 hy0 hsame0 hread0 (.cons hx1 hy1 hsame1 hread1 hdone fun s hs => ?_) fun s hs => ?_
      · have := (hbound s hs).1
        omega
      · rcases List.mem_cons.mp hs with rfl | hs
        · exact le_refl _
        · have := (hbound s hs).1
          omega

/-- The loop over the addresses of a create or forward request, with `n` of them to go. -/
theorem translateSPAs_spec (ht : t.WellSized) {n addr index size : ℕ} {more : Bytes} {W : ℕ → Prop}
    (haddr : 72 ≤ addr) (hsame : SameOutside W (m ++ more) buf)
    (hW : ∀ i, W i → (i < 68 ∨ 72 ≤ i) ∧ i < addr) (hsize : u32At m 68 = some size)
    (hn : (size + 15) / 16 = index + n) (hle : addr + n * 16 ≤ m.length) {fuel : ℕ} (hfuel : n < fuel)
    (visits : Visits) :
    ∃ buf' visits', t.translateSPAs fuel addr index buf visits = some (buf', visits') ∧
      Translated t m (addressRun addr index n) buf buf' := by
  have hagree := hsame.agrees
  have hr := hagree.u32At hsize fun i hi hi' hw => by have := (hW i hw).1; omega
  obtain ⟨fuel, rfl⟩ : ∃ f, fuel = f + 1 := ⟨fuel - 1, by omega⟩
  induction n generalizing addr index buf W fuel visits with
  | zero =>
    refine ⟨buf, visits, ?_, .nil t m buf⟩
    simp only [translateSPAs, hr, Option.bind_eq_bind, Option.bind_some,
      if_neg (show ¬ index * sizeofDPAddress < size by rw [sizeofDPAddress]; omega)]
    rfl
  | succ n ih =>
    obtain ⟨x, hx⟩ := @readAddress_of m addr (by omega)
    have hx' := readAddress_agree hagree hx fun i hi hi' hw => by have := (hW i hw).2; omega
    obtain ⟨buf1, y, hspa, hy, hsame1, hread⟩ := @translateSPA_spec t buf ht addr index x hx'
    have hsame' : SameOutside (fun i => W i ∨ Range (addr + 2) 6 i) (m ++ more) buf1 :=
      (hsame.mono fun i hi => Or.inl hi).trans (hsame1.mono fun i hi => Or.inr hi)
    have hW' : ∀ i, (W i ∨ Range (addr + 2) 6 i) → (i < 68 ∨ 72 ≤ i) ∧ i < addr + 16 := by
      intro i h
      obtain hw | hrange := h
      · have := hW i hw
        omega
      · have := hrange.1
        have := hrange.2
        omega
    obtain ⟨fuel, rfl⟩ : ∃ f, fuel = f + 1 := ⟨fuel - 1, by omega⟩
    obtain ⟨buf', visits', hloop, hdone⟩ := ih (by omega) hsame' hW'
      (show (size + 15) / 16 = (index + 1) + n by omega) (show addr + 16 + n * 16 ≤ m.length by omega)
      (visits ++ [(x, index)]) hsame'.agrees
      (hsame'.agrees.u32At hsize fun i hi hi' hw => by have := (hW' i hw).1; omega) fuel (by omega)
    refine ⟨buf', visits', ?_, .cons hx hy hsame1 hread hdone fun s hs => (mem_addressRun s hs).1⟩
    rw [translateSPAs]
    simp only [hr, Option.bind_eq_bind, Option.bind_some,
      if_pos (show index * sizeofDPAddress < size by rw [sizeofDPAddress]; omega), hspa]
    exact hloop

end spas

/-! ### Messages -/

section messages

variable {t : GameAddressTranslater} {m m' buf : Bytes} {spas : List (ℕ × ℕ)}

/-- `m'` is `m` with the header's address and the addresses at `spas` translated. -/
structure Rewritten (t : GameAddressTranslater) (spas : List (ℕ × ℕ)) (m m' : Bytes) : Prop where
  reply : readAddress m' 4 = some ⟨t.replyAddress, t.replyPorts.1⟩
  players : ∀ s ∈ spas, ∃ x y, readAddress m s.1 = some x ∧ t.translatePlayerSPA x s.2 = some y ∧
    readAddress m' s.1 = some y
  same : SameOutside (AddressFields spas) m m'

theorem Rewritten.unique {m1 m2 : Bytes} (h1 : Rewritten t spas m m1) (h2 : Rewritten t spas m m2) :
    m1 = m2 := by
  refine List.ext_getElem? fun i => ?_
  by_cases hi : AddressFields spas i
  · rcases hi with hr | ⟨s, hs, hr⟩
    · exact readAddress_bytes h1.reply h2.reply hr
    · obtain ⟨x1, y1, hx1, hy1, hr1⟩ := h1.players s hs
      obtain ⟨x2, y2, hx2, hy2, hr2⟩ := h2.players s hs
      obtain rfl := Option.some.inj (hx1.symm.trans hx2)
      obtain rfl := Option.some.inj (hy1.symm.trans hy2)
      exact readAddress_bytes hr1 hr2 hr
  · rw [h1.same.bytes i hi, h2.same.bytes i hi]

/-- The players' addresses of a message whose header has been translated. -/
theorem translatePayload_spec (h : AddressedMessage m spas) (ht : t.WellSized) {more : Bytes}
    (hsame : SameOutside (Range 6 6) (m ++ more) buf) {command : ℕ}
    (hcommand : DPHeader.command m = some command) :
    ∃ buf' visits, (if command = 0x0029 then t.translateSuperEnumPlayersReply buf
      else if isForwardOrCreate command then t.translateForwardOrCreateRequest buf
      else some (buf, [])) = some (buf', visits) ∧ Translated t m spas buf buf' := by
  have haddr := h.addresses
  rw [addressData, hcommand, Option.bind_eq_bind, Option.bind_some] at haddr
  have hagree := hsame.agrees
  have havoid : ∀ i, 12 ≤ i → ¬ Range 6 6 i := fun i hi hr => by have := hr.2; omega
  split at haddr
  · rename_i hc
    obtain ⟨count, offset, hcount, hoffset, hcases⟩ := superEnumData_some haddr
    have hr := hagree.u32At hoffset fun i hi _ => havoid i (by omega)
    simp only [if_pos hc, translateSuperEnumPlayersReply, hr, Option.bind_eq_bind, Option.bind_some]
    rcases hcases with ⟨rfl, rfl⟩ | ⟨hne, hplayers⟩
    · exact ⟨buf, [], rfl, .nil t m buf⟩
    · rw [if_neg hne]
      refine translatePlayers_spec ht hplayers hsame ?_ (by rw [hcount, zero_add]) ?_ []
      · intro i hi
        have := hi.2
        omega
      · have hlen := hagree.length
        rcases playerData_count hplayers with hn | hn <;> omega
  rename_i hc
  rw [if_neg hc]
  split at haddr
  · rename_i hc'
    have hcreate : isForwardOrCreate command = true := by
      rw [isForwardOrCreate, decide_eq_true_iff]
      tauto
    obtain ⟨short, long, size, hshort, hlong, hsize, hcases⟩ := forwardOrCreateData_some haddr
    have hr1 := hagree.u32At hshort fun i hi _ => havoid i (by omega)
    have hr2 := hagree.u32At hlong fun i hi _ => havoid i (by omega)
    have hr3 := hagree.u32At hsize fun i hi _ => havoid i (by omega)
    simp only [if_pos hcreate, translateForwardOrCreateRequest, hr1, hr2, hr3, Option.bind_eq_bind,
      Option.bind_some]
    rcases hcases with ⟨rfl, rfl⟩ | ⟨hne, hle, rfl⟩
    · exact ⟨buf, [], rfl, .nil t m buf⟩
    · rw [if_neg hne]
      have hlen := hagree.length
      refine translateSPAs_spec ht (by omega) hsame ?_ hsize (zero_add _).symm hle (by omega) []
      intro i hi
      have := hi.2
      omega
  · rename_i hc'
    have hcreate : ¬ isForwardOrCreate command = true := by
      rw [isForwardOrCreate, decide_eq_true_iff]
      tauto
    obtain rfl : [] = spas := Option.some.inj haddr
    rw [if_neg hcreate]
    exact ⟨buf, [], rfl, .nil t m buf⟩

theorem translateMessage_spec (h : AddressedMessage m spas) (ht : t.WellSized) (more : Bytes) :
    ∃ m' visits, t.translateMessage (m ++ more) = some (m' ++ more, visits) ∧ Rewritten t spas m m' := by
  have hlen := h.length_ge
  have hagree : AgreesOutside (AddressFields spas) m (m ++ more) :=
    (SameOutside.refl (AddressFields spas) (m ++ more)).agrees
  obtain ⟨hok, -, -⟩ := h.header hagree
  obtain ⟨buf1, hw⟩ := @writeAddress_of (m ++ more) 4 (by rw [List.length_append]; omega)
    ⟨t.replyAddress, t.replyPorts.1⟩
  have hsame1 : SameOutside (Range 6 6) (m ++ more) buf1 := writeAddress_same hw
  have hread1 := writeAddress_read hw ht.replyAddress ht.replyPort
  obtain ⟨-, -, command, hcommand, hcommand1⟩ := h.header (hsame1.mono fun i hi => Or.inl hi).agrees
  obtain ⟨buf2, visits, hpayload, hdone⟩ := translatePayload_spec h ht hsame1 hcommand
  have hsame2 : SameOutside (AddressFields spas) (m ++ more) buf2 :=
    (hsame1.mono fun i hi => Or.inl hi).trans (hdone.same.mono fun i hi => Or.inr hi)
  have hin : ∀ i, AddressFields spas i → i < m.length := by
    intro i hgiven
    obtain hr | ⟨s, hs, hr⟩ := hgiven
    · have := hr.2
      omega
    · have := (h.bound s hs).2
      have := hr.2
      omega
  obtain ⟨m', rfl, hsame⟩ := hsame2.split hin
  refine ⟨m', visits, ?_, ?_, ?_, hsame⟩
  · simp only [translateMessage, hok, translateReplyAddress, replyPort, hw, hcommand1, Option.bind_eq_bind,
      Option.bind_some, if_true]
    exact hpayload
  · have hr := readAddress_agree hdone.same.agreesSelf hread1 (by
      intro i _ hi hgiven
      obtain ⟨s, hs, hr⟩ := hgiven
      have := (h.bound s hs).1
      have := hr.1
      omega)
    exact readAddress_prefix (by rw [hsame.length]; omega) hr
  · intro s hs
    obtain ⟨x, y, hx, hy, hread⟩ := hdone.players s hs
    have := (h.bound s hs).2
    exact ⟨x, y, hx, hy, readAddress_prefix (by rw [hsame.length]; omega) hread⟩

/-! ### Buffers of messages -/

/-- In front of anything, `m` becomes `m'`. -/
def Becomes (t : GameAddressTranslater) (m m' : Bytes) : Prop :=
  28 ≤ m.length ∧ m'.length = m.length ∧ ∀ more, ∃ visits,
    t.translateMessage (m ++ more) = some (m' ++ more, visits) ∧ DPHeader.size (m' ++ more) = some m.length

theorem becomes (h : AddressedMessage m spas) (ht : t.WellSized) :
    ∃ m', t.Becomes m m' ∧ Rewritten t spas m m' := by
  obtain ⟨m', -, -, hm'⟩ := translateMessage_spec h ht []
  refine ⟨m', ⟨h.length_ge, hm'.same.length, fun more => ?_⟩, hm'⟩
  obtain ⟨m2, visits, hstep, hm2⟩ := translateMessage_spec h ht more
  obtain rfl := hm'.unique hm2
  obtain ⟨-, hsize, -⟩ := h.header (hm'.same.append more).agrees
  exact ⟨visits, hstep, hsize⟩

theorem length_becomes {ms ms' : List Bytes} (h : List.Forall₂ t.Becomes ms ms') :
    ms'.flatten.length = ms.flatten.length := by
  induction h with
  | nil => rfl
  | cons hm _ ih =>
    rw [List.flatten_cons, List.flatten_cons, List.length_append, List.length_append, hm.2.1, ih]

theorem translateLoop_becomes {ms ms' : List Bytes} (h : List.Forall₂ t.Becomes ms ms') (tail : Bytes)
    {fuel : ℕ} (hfuel : ms.flatten.length < fuel) :
    ∃ visits, t.translateLoop fuel ms.flatten.length (ms.flatten ++ tail) =
      some (ms'.flatten ++ tail, visits) := by
  induction h generalizing fuel with
  | nil =>
    obtain ⟨fuel, rfl⟩ : ∃ f, fuel = f + 1 := ⟨fuel - 1, by simp at hfuel; omega⟩
    exact ⟨[], rfl⟩
  | @cons m m' ms ms' hm _ ih =>
    obtain ⟨hlen, hlen', hm⟩ := hm
    obtain ⟨visits, hstep, hsize⟩ := hm (ms.flatten ++ tail)
    rw [List.flatten_cons, List.length_append] at hfuel ⊢
    obtain ⟨fuel, rfl⟩ : ∃ f, fuel = f + 1 := ⟨fuel - 1, by omega⟩
    obtain ⟨visits', hloop⟩ := @ih fuel (by omega)
    refine ⟨visits ++ visits', ?_⟩
    rw [List.append_assoc, translateLoop, if_neg (by omega), hstep, Option.bind_eq_bind, Option.bind_some]
    simp only [hsize, Option.bind_eq_bind, Option.bind_some]
    rw [Nat.add_sub_cancel_left, List.drop_left' hlen', hloop, List.take_left' hlen', List.flatten_cons,
      List.append_assoc]
    rfl

/-- The translation of messages one after the other is the messages' translations. -/
theorem translate_becomes {ms ms' : List Bytes} (h : List.Forall₂ t.Becomes ms ms') :
    ∃ visits, t.translate ms.flatten = some (ms'.flatten, visits) := by
  obtain ⟨visits, hloop⟩ := translateLoop_becomes h [0] (Nat.lt_succ_self _)
  refine ⟨visits, ?_⟩
  rw [translate, hloop]
  show some ((ms'.flatten ++ [0]).take ms.flatten.length, visits) = _
  rw [List.take_left' (length_becomes h)]

end messages

end GameAddressTranslater

/-! ### Two nodes -/

namespace TafnetGameNode

/-- Ids, addresses and ports fit their types. -/
structure Sized (g : TafnetGameNode) : Prop where
  ids : ∀ port p : ℕ, g.remotePlayerIds[port]? = some p → p < 2 ^ 32
  receivers : ∀ p r, g.Live p r → r.bindAddress < 2 ^ 32 ∧ r.tcpPort < 2 ^ 16 ∧ r.udpPort < 2 ^ 16

/-- The ports of each receiver lead to its player, and the local game's own ports lead to nobody. -/
structure CorrectRouting (g : TafnetGameNode) (gamePorts : ℕ → Prop) : Prop where
  tcp : ∀ p r, g.Live p r → g.remotePlayerIds[r.tcpPort]? = some p
  udp : ∀ p r, g.Live p r → g.remotePlayerIds[r.udpPort]? = some p
  game : ∀ port, gamePorts port → g.remotePlayerIds[port]? = none

/-- Whom an address from the game of player `id` means, by its port. -/
inductive Denotes (g : TafnetGameNode) (id : ℕ) (gamePorts : ℕ → Prop) (port : ℕ) : ℕ → Prop where
  | self (h : gamePorts port) : Denotes g id gamePorts port id
  | remote {p : ℕ} {r : GameReceiver} (hl : g.Live p r) (h : port = r.tcpPort ∨ port = r.udpPort) :
    Denotes g id gamePorts port p

section nodes

variable {g a b : TafnetGameNode} {id : ℕ} {gamePorts : ℕ → Prop}

theorem CorrectRouting.getD (h : g.CorrectRouting gamePorts) {port p : ℕ}
    (hd : g.Denotes id gamePorts port p) : (g.remotePlayerIds[port]?).getD id = p := by
  cases hd with
  | self hg => rw [h.game port hg, Option.getD_none]
  | remote hl hport =>
    rcases hport with rfl | rfl
    · rw [h.tcp p _ hl, Option.getD_some]
    · rw [h.udp p _ hl, Option.getD_some]

theorem localTranslater_wellSized (hs : g.Sized) (hid : id < 2 ^ 32) {replyAddress : ℕ}
    {replyPorts : ℕ × ℕ} (haddress : replyAddress < 2 ^ 32) (hport : replyPorts.1 < 2 ^ 16) :
    (g.localTranslater id replyAddress replyPorts).WellSized := by
  refine ⟨haddress, hport, fun x index hx => ⟨_, rfl, ?_, hx⟩⟩
  show (g.remotePlayerIds[x.port]?).getD id < 2 ^ 32
  cases h : g.remotePlayerIds[x.port]? with
  | none => exact hid
  | some p => exact hs.ids _ _ h

theorem remoteTranslater_live {r : GameReceiver} {x : DPAddress} (hl : g.Live x.address r)
    (replyAddress index : ℕ) (replyPorts : ℕ × ℕ) :
    (g.remoteTranslater replyAddress replyPorts).translatePlayerSPA x index =
      some ⟨r.bindAddress, if index = 0 then r.tcpPort else r.udpPort⟩ := by
  unfold remoteTranslater
  dsimp only
  rw [hl]

theorem remoteTranslater_wellSized (hs : g.Sized) {r : GameReceiver} (hl : g.Live id r) :
    (g.remoteTranslater r.bindAddress (r.tcpPort, r.udpPort)).WellSized := by
  obtain ⟨ha, ht, hu⟩ := hs.receivers id r hl
  refine ⟨ha, ht, fun x index _ => ?_⟩
  cases h : g.gameReceivers[x.address]? with
  | some r' =>
    obtain ⟨ha', ht', hu'⟩ := hs.receivers _ r' h
    refine ⟨_, remoteTranslater_live h _ _ _, ha', ?_⟩
    dsimp only
    split <;> assumption
  | none =>
    refine ⟨⟨r.bindAddress, if 0 < index then r.udpPort else r.tcpPort⟩, ?_, ha, ?_⟩
    · unfold remoteTranslater
      dsimp only
      rw [h]
    · dsimp only
      split <;> assumption

/-- A message from the game of player `id` at the node `a`, as it comes to the game at `b`. -/
structure Carried (a b : TafnetGameNode) (id : ℕ) (gamePorts : ℕ → Prop) (r : GameReceiver)
    (m m' : Bytes) : Prop where
  reply : readAddress m' 4 = some ⟨r.bindAddress, r.tcpPort⟩
  players : ∀ spas, spAddresses m = some spas → ∀ s ∈ spas, ∀ x p q, readAddress m s.1 = some x →
    a.Denotes id gamePorts x.port p → b.Live p q →
      readAddress m' s.1 = some ⟨q.bindAddress, if s.2 = 0 then q.tcpPort else q.udpPort⟩
  same : ∀ spas, spAddresses m = some spas → SameOutside (AddressFields spas) m m'

/-- What `a` writes into the address of a player, `b` finds there. -/
theorem carried_of_rewritten {r : GameReceiver} {replyAddress : ℕ} {replyPorts : ℕ × ℕ}
    {spas : List (ℕ × ℕ)} {m m1 m2 : Bytes} (ha : a.CorrectRouting gamePorts)
    (hm : ControlMessage m spas)
    (h1 : (a.localTranslater id replyAddress replyPorts).Rewritten spas m m1)
    (h2 : (b.remoteTranslater r.bindAddress (r.tcpPort, r.udpPort)).Rewritten spas m1 m2) :
    Carried a b id gamePorts r m m2 := by
  refine ⟨h2.reply, fun spas' hspas' => ?_, fun spas' hspas' => ?_⟩
  all_goals obtain rfl := Option.some.inj (hm.addresses.symm.trans hspas')
  · intro s hs x p q hx hd hq
    obtain ⟨x', y, hx', hy, hy1⟩ := h1.players s hs
    obtain ⟨y', z, hy', hz, hz2⟩ := h2.players s hs
    obtain rfl := Option.some.inj (hx.symm.trans hx')
    obtain rfl := Option.some.inj (hy1.symm.trans hy')
    have haddress : y.address = p := by
      rw [← ha.getD hd]
      exact congrArg DPAddress.address (Option.some.inj hy).symm
    rw [hz2, ← hz, remoteTranslater_live (haddress ▸ hq)]
  · exact h1.same.trans h2.same

theorem message_composes {r : GameReceiver} {replyAddress : ℕ} {replyPorts : ℕ × ℕ} {spas : List (ℕ × ℕ)}
    {m : Bytes} (ha : a.CorrectRouting gamePorts)
    (htA : (a.localTranslater id replyAddress replyPorts).WellSized)
    (htB : (b.remoteTranslater r.bindAddress (r.tcpPort, r.udpPort)).WellSized)
    (hm : ControlMessage m spas) :
    ∃ m1 m2 calls, (a.localTranslater id replyAddress replyPorts).Becomes m m1 ∧
      (b.remoteTranslater r.bindAddress (r.tcpPort, r.udpPort)).Becomes m1 m2 ∧
        Carried a b id gamePorts r m m2 ∧ Reports m calls ∧ Reports m2 calls := by
  obtain ⟨m1, hbecomes1, hrewritten1⟩ := GameAddressTranslater.becomes hm.addressed htA
  have hm1 := hm.frame hrewritten1.same
  obtain ⟨m2, hbecomes2, hrewritten2⟩ := GameAddressTranslater.becomes hm1.addressed htB
  obtain ⟨calls, hcalls⟩ := hm.reports
  exact ⟨m1, m2, calls, hbecomes1, hbecomes2, carried_of_rewritten ha hm hrewritten1 hrewritten2,
    hcalls m (.refl _ m), hcalls m2 (hrewritten1.same.trans hrewritten2.same)⟩

/-- What the game of player `id` sends at the node `a` comes to the game at the node `b` with the
addresses that `b` has for the players, and is the same to the parser. -/
theorem translation_composes {r : GameReceiver} {ms : List Bytes} (ha : a.CorrectRouting gamePorts)
    (hsa : a.Sized) (hsb : b.Sized) (hid : id < 2 ^ 32) (hr : b.Live id r)
    (hms : ∀ m ∈ ms, ∃ spas, ControlMessage m spas) :
    ∃ (a' : TafnetGameNode) (ms1 ms2 : List Bytes),
      a.translateMessageFromLocalGame id ms.flatten 0 (0xdead, 0xbeef) = some (a', ms1.flatten) ∧
      b.translateMessageFromRemoteGame ms1.flatten r.bindAddress (r.tcpPort, r.udpPort) =
        some ms2.flatten ∧
      List.Forall₂ (Carried a b id gamePorts r) ms ms2 ∧
      ∀ (parser : TAPacketParser) (isLocalSource : Bool), ∃ parser',
        parser.parseGameData isLocalSource ms.flatten = some parser' ∧
        parser.parseGameData isLocalSource ms2.flatten = some parser' := by
  have htA : (a.localTranslater id 0 (0xdead, 0xbeef)).WellSized :=
    localTranslater_wellSized hsa hid (by norm_num) (by norm_num)
  have htB := remoteTranslater_wellSized hsb hr
  have hlists : ∃ ms1 ms2 cs, List.Forall₂ (a.localTranslater id 0 (0xdead, 0xbeef)).Becomes ms ms1 ∧
      List.Forall₂ (b.remoteTranslater r.bindAddress (r.tcpPort, r.udpPort)).Becomes ms1 ms2 ∧
      List.Forall₂ (Carried a b id gamePorts r) ms ms2 ∧ List.Forall₂ Reports ms cs ∧
      List.Forall₂ Reports ms2 cs := by
    induction ms with
    | nil => exact ⟨[], [], [], .nil, .nil, .nil, .nil, .nil⟩
    | cons m ms ih =>
      obtain ⟨spas, hm⟩ := hms m List.mem_cons_self
      obtain ⟨m1, m2, calls, h1, h2, h3, h4, h5⟩ := message_composes ha htA htB hm
      obtain ⟨ms1, ms2, cs, hs1, hs2, hs3, hs4, hs5⟩ := ih fun m hm => hms m (List.mem_cons_of_mem _ hm)
      exact ⟨m1 :: ms1, m2 :: ms2, calls :: cs, .cons h1 hs1, .cons h2 hs2, .cons h3 hs3, .cons h4 hs4,
        .cons h5 hs5⟩
  obtain ⟨ms1, ms2, cs, h1, h2, h3, h4, h5⟩ := hlists
  obtain ⟨visits, htranslate1⟩ := GameAddressTranslater.translate_becomes h1
  obtain ⟨visits', htranslate2⟩ := GameAddressTranslater.translate_becomes h2
  refine ⟨visits.foldl visit a, ms1, ms2, ?_, ?_, h3, fun parser isLocalSource => ?_⟩
  · rw [translateMessageFromLocalGame, htranslate1]
    rfl
  · rw [translateMessageFromRemoteGame, htranslate2]
    rfl
  · exact ⟨_, parseGameData_reports h4 parser isLocalSource, parseGameData_reports h5 parser isLocalSource⟩

/-- A create request with two addresses, one with the TCP port 2300 and one with the UDP port 7000. -/
def createPlayer : Bytes :=
  [0x80, 0x00, 0xb0, 0xfa, 2, 0, 0x08, 0xfc, 127, 0, 0, 1, 0, 0, 0, 0, 0, 0, 0, 0] ++ playString ++
    [0x08, 0, 0x0e, 0, 0, 0, 0, 0, 7, 0, 0, 0] ++ List.replicate 32 0 ++ [32, 0, 0, 0] ++
    List.replicate 24 0 ++ [2, 0, 0x08, 0xfc, 127, 0, 0, 1, 0, 0, 0, 0, 0, 0, 0, 0] ++
    [2, 0, 0x1b, 0x58, 127, 0, 0, 1, 0, 0, 0, 0, 0, 0, 0, 0]

theorem controlMessage_createPlayer : ControlMessage createPlayer [(96, 0), (112, 1)] := by
  constructor <;> decide +kernel

/-- The node of player 1, which knows player 2. -/
def firstNode : TafnetGameNode :=
  (new none []).registerRemotePlayer 2 0 ⟨2130706433, 6000, 7000⟩ false

/-- The node of player 3, which knows the players 1 and 2. -/
def thirdNode : TafnetGameNode :=
  ((new none []).registerRemotePlayer 1 0 ⟨2130706433, 6001, 7001⟩ false).registerRemotePlayer 2 0
    ⟨2130706433, 6002, 7002⟩ false

theorem translation_composes_createPlayer :
    ∃ (a' : TafnetGameNode) (ms1 ms2 : List Bytes),
      firstNode.translateMessageFromLocalGame 1 createPlayer 0 (0xdead, 0xbeef) = some (a', ms1.flatten) ∧
      thirdNode.translateMessageFromRemoteGame ms1.flatten 2130706433 (6001, 7001) = some ms2.flatten ∧
      List.Forall₂ (Carried firstNode thirdNode 1 (fun port => port = 2300 ∨ port = 2350)
        ⟨2130706433, 0, 6001, 7001⟩) [createPlayer] ms2 ∧
      ∀ (parser : TAPacketParser) (isLocalSource : Bool), ∃ parser',
        parser.parseGameData isLocalSource createPlayer = some parser' ∧
        parser.parseGameData isLocalSource ms2.flatten = some parser' := by
  have hsized : ∀ g : TafnetGameNode, (∀ x ∈ g.remotePlayerIds.toList, x.2 < 2 ^ 32) →
      (∀ x ∈ g.gameReceivers.toList, x.2.bindAddress < 2 ^ 32 ∧ x.2.tcpPort < 2 ^ 16 ∧
        x.2.udpPort < 2 ^ 16) → g.Sized := fun g h1 h2 =>
    ⟨fun port p h => h1 (port, p) (Table.mem_toList.mpr h), forall_live.mp h2⟩
  have hrouting : firstNode.CorrectRouting fun port => port = 2300 ∨ port = 2350 := by
    refine ⟨forall_live.mp (by decide +kernel), forall_live.mp (by decide +kernel), ?_⟩
    rintro port (rfl | rfl) <;> decide +kernel
  have h := @translation_composes firstNode thirdNode 1 _ ⟨2130706433, 0, 6001, 7001⟩ [createPlayer]
    hrouting (hsized _ (by decide +kernel) (by decide +kernel))
    (hsized _ (by decide +kernel) (by decide +kernel)) (by norm_num) (by decide +kernel)
    (fun m hm => ⟨_, List.mem_singleton.mp hm ▸ controlMessage_createPlayer⟩)
  rwa [List.flatten_singleton] at h

end nodes

end TafnetGameNode

end Gpgnet4TA.Tafnet
