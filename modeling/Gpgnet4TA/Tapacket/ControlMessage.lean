import Gpgnet4TA.Tapacket.TAPacketParser

/-!
# Well-formed control messages

A control message is a DirectPlay message with the action string "play". In a well-formed one
every length and every offset stays inside: `spAddresses` says where its service providers'
addresses are, each with its index among those of a player. Nothing that is read besides
depends on the bytes of the addresses and ports themselves, nor on what comes behind the
message.
-/

namespace Gpgnet4TA.Tapacket
open Gpgnet4TA.Lib

/-! ### Where the addresses are -/

/-- `n` addresses one behind the other. -/
def addressRun : ℕ → ℕ → ℕ → List (ℕ × ℕ)
  | _, _, 0 => []
  | ofs, index, n + 1 => (ofs, index) :: addressRun (ofs + sizeofDPAddress) (index + 1) n

/-- The addresses of `n` packed players, the first one at `player`. A packed player's size
covers its fixed part of 16 bytes. -/
def playerAddresses (m : Bytes) : ℕ → ℕ → Option (List (ℕ × ℕ))
  | 0, _ => some []
  | n + 1, player => do
    let size ← u32At m player
    let (_, addr) ← superPackedPlayer m player
    if size < 16 ∨ m.length < addr + 2 * sizeofDPAddress then none
    else
      let rest ← playerAddresses m n (addr + 2 * sizeofDPAddress)
      return (addr, 0) :: (addr + sizeofDPAddress, 1) :: rest

/-- The players, if there are any, come behind the fixed part, which ends at 56. -/
def superEnumAddresses (m : Bytes) : Option (List (ℕ × ℕ)) := do
  let player_count ← u32At m 28
  let packed_offset ← u32At m 36
  if packed_offset = 0 ∨ player_count = 0 then return []
  else if packed_offset < 36 then none
  else playerAddresses m player_count (0x4a - 0x36 + packed_offset)

/-- The same for the translater, to which any offset and any size of a packed player will do: the
addresses are inside the message and behind the number of players, which is at 28. -/
def playerData (m : Bytes) : ℕ → ℕ → Option (List (ℕ × ℕ))
  | 0, _ => some []
  | n + 1, player => do
    let (_, addr) ← superPackedPlayer m player
    if addr < 32 ∨ m.length < addr + 2 * sizeofDPAddress then none
    else
      let rest ← playerData m n (addr + 2 * sizeofDPAddress)
      return (addr, 0) :: (addr + sizeofDPAddress, 1) :: rest

def superEnumData (m : Bytes) : Option (List (ℕ × ℕ)) := do
  let player_count ← u32At m 28
  let packed_offset ← u32At m 36
  if packed_offset = 0 then return []
  else playerData m player_count (0x4a - 0x36 + packed_offset)

/-- A name ends within its length. -/
def nameFits (m : Bytes) (ofs length : ℕ) : Bool :=
  length = 0 ∨ (cwStr m ofs).any fun s => s.2 ≤ ofs + length

theorem nameFits_iff {m : Bytes} {ofs length : ℕ} :
    nameFits m ofs length = true ↔
      (0 < length → ∃ name p, cwStr m ofs = some (name, p) ∧ p ≤ ofs + length) := by
  rw [nameFits, decide_eq_true_iff, Nat.pos_iff_ne_zero, Decidable.or_iff_not_imp_left]
  refine imp_congr_right fun _ => ?_
  cases cwStr m ofs with
  | none => simp
  | some s =>
    rw [Option.any_some, decide_eq_true_iff]
    exact ⟨fun h => ⟨s.1, s.2, rfl, h⟩, fun ⟨name, p, hs, h⟩ => by cases hs; exact h⟩

def forwardOrCreateAddresses (m : Bytes) : Option (List (ℕ × ℕ)) := do
  let short_name_length ← u32At m 60
  let long_name_length ← u32At m 64
  let service_provider_data_size ← u32At m 68
  if service_provider_data_size = 0 then return []
  else
    let addr := 96 + short_name_length + long_name_length
    let n := (service_provider_data_size + 15) / sizeofDPAddress
    if nameFits m 96 short_name_length ∧ nameFits m (96 + short_name_length) long_name_length ∧
        addr + n * sizeofDPAddress ≤ m.length then return addressRun addr 0 n
    else none

/-- The same for the translater, which does not read the names. -/
def forwardOrCreateData (m : Bytes) : Option (List (ℕ × ℕ)) := do
  let short_name_length ← u32At m 60
  let long_name_length ← u32At m 64
  let service_provider_data_size ← u32At m 68
  if service_provider_data_size = 0 then return []
  else
    let addr := 96 + short_name_length + long_name_length
    let n := (service_provider_data_size + 15) / sizeofDPAddress
    if addr + n * sizeofDPAddress ≤ m.length then return addressRun addr 0 n else none

def spAddresses (m : Bytes) : Option (List (ℕ × ℕ)) := do
  let command ← DPHeader.command m
  if command = 0x0029 then superEnumAddresses m
  else if command = 0x0008 ∨ command = 0x0013 ∨ command = 0x002e ∨ command = 0x0038 then
    forwardOrCreateAddresses m
  else if command = 0x000b then (u32At m 32).map fun _ => []
  else return []

structure ControlMessage (m : Bytes) (spas : List (ℕ × ℕ)) : Prop where
  looksOk : DPHeader.looksOk m = some true
  actionstring : DPHeader.actionstring m = some playString
  size : DPHeader.size m = some m.length
  addresses : spAddresses m = some spas

/-- What the translater takes for addresses, in any message. -/
def addressData (m : Bytes) : Option (List (ℕ × ℕ)) := do
  let command ← DPHeader.command m
  if command = 0x0029 then superEnumData m
  else if command = 0x0008 ∨ command = 0x0013 ∨ command = 0x002e ∨ command = 0x0038 then
    forwardOrCreateData m
  else return []

/-- A message, whatever its action string, with all its address data inside. -/
structure AddressedMessage (m : Bytes) (spas : List (ℕ × ℕ)) : Prop where
  looksOk : DPHeader.looksOk m = some true
  size : DPHeader.size m = some m.length
  addresses : addressData m = some spas

/-- The bytes of the address and the port of the header and of the addresses at `spas`. -/
def AddressFields (spas : List (ℕ × ℕ)) (i : ℕ) : Prop :=
  Range 6 6 i ∨ ∃ s ∈ spas, Range (s.1 + 2) 6 i

/-! ### Reading strings and packed players -/

section reading

variable {W : ℕ → Prop} {m b : Bytes}

theorem cwStrLoop_le {fuel p p' : ℕ} {name : Bytes} (h : cwStrLoop m fuel p = some (name, p')) :
    p + 2 ≤ p' := by
  induction fuel generalizing p name with
  | zero => cases h
  | succ fuel ih =>
    obtain ⟨c, -, h⟩ := Option.bind_eq_some_iff.mp h
    split at h
    · cases h
      exact le_refl _
    · obtain ⟨⟨rest, q⟩, hrest, h⟩ := Option.bind_eq_some_iff.mp h
      cases h
      have hle := ih hrest
      omega

theorem cwStrLoop_frame (hb : AgreesOutside W m b) {fuel fuel' p p' : ℕ} {name : Bytes}
    (h : cwStrLoop m fuel p = some (name, p')) (hfuel : fuel ≤ fuel')
    (havoid : ∀ i, p ≤ i → i < p' → ¬ W i) : cwStrLoop b fuel' p = some (name, p') := by
  induction fuel generalizing p name fuel' with
  | zero => cases h
  | succ fuel ih =>
    obtain ⟨fuel', rfl⟩ : ∃ k, fuel' = k + 1 := ⟨fuel' - 1, by omega⟩
    have hle := cwStrLoop_le h
    obtain ⟨c, hc, h⟩ := Option.bind_eq_some_iff.mp h
    rw [cwStrLoop, hb.u16At hc fun i hi hi' => havoid i hi (by omega), Option.bind_eq_bind,
      Option.bind_some]
    split at h
    · rename_i hzero
      rw [if_pos hzero]
      exact h
    · rename_i hne
      obtain ⟨⟨rest, q⟩, hrest, h⟩ := Option.bind_eq_some_iff.mp h
      cases h
      rw [if_neg hne, ih hrest (by omega) fun i hi hi' => havoid i (by omega) hi']
      rfl

theorem cwStr_frame (hb : AgreesOutside W m b) {p p' : ℕ} {name : Bytes}
    (h : cwStr m p = some (name, p')) (havoid : ∀ i, p ≤ i → i < p' → ¬ W i) :
    cwStr b p = some (name, p') :=
  cwStrLoop_frame hb h (Nat.succ_le_succ hb.length) havoid

theorem optionalName_le {present : Bool} {name name' : Bytes} {p p' : ℕ}
    (h : optionalName m present name p = some (name', p')) : p ≤ p' := by
  unfold optionalName at h
  split at h
  · have hle := cwStrLoop_le h
    omega
  · cases h
    exact le_refl _

theorem optionalName_frame (hb : AgreesOutside W m b) {present : Bool} {name name' : Bytes} {p p' : ℕ}
    (h : optionalName m present name p = some (name', p')) (havoid : ∀ i, p ≤ i → i < p' → ¬ W i) :
    optionalName b present name p = some (name', p') := by
  unfold optionalName at h ⊢
  split at h
  · rename_i hp
    rw [if_pos hp]
    exact cwStr_frame hb h havoid
  · rename_i hp
    rw [if_neg hp]
    exact h

theorem skipPlayerData_le {n p p' : ℕ} (h : skipPlayerData m n p = some p') : p ≤ p' := by
  unfold skipPlayerData at h
  split at h
  · obtain ⟨len, -, rfl⟩ := Option.map_eq_some_iff.mp h
    omega
  split at h
  · obtain ⟨len, -, rfl⟩ := Option.map_eq_some_iff.mp h
    omega
  · cases h
    exact le_refl _

theorem skipPlayerData_frame (hb : AgreesOutside W m b) {n p p' : ℕ}
    (h : skipPlayerData m n p = some p') (havoid : ∀ i, p ≤ i → i < p' → ¬ W i) :
    skipPlayerData b n p = some p' := by
  unfold skipPlayerData at h ⊢
  split at h
  · rename_i hn
    obtain ⟨len, hlen, rfl⟩ := Option.map_eq_some_iff.mp h
    rw [if_pos hn, hb.sliceAt hlen fun i hi hi' => havoid i hi (by omega), Option.map_some]
  split at h
  · rename_i hn hn'
    obtain ⟨len, hlen, rfl⟩ := Option.map_eq_some_iff.mp h
    rw [if_neg hn, if_pos hn', hb.u16At hlen fun i hi hi' => havoid i hi (by omega), Option.map_some]
  · rename_i hn hn'
    rw [if_neg hn, if_neg hn']
    exact h

theorem skipServiceProvideLength_le (n p : ℕ) : p ≤ skipServiceProvideLength n p := by
  unfold skipServiceProvideLength
  split_ifs <;> omega

/-- The addresses come behind the fixed part and the word after it. -/
theorem superPackedPlayer_le {player size addr : ℕ} {name : Bytes} (hsize : u32At m player = some size)
    (h : superPackedPlayer m player = some (name, addr)) : player + size + 4 ≤ addr := by
  unfold superPackedPlayer at h
  rw [hsize, Option.bind_eq_bind, Option.bind_some] at h
  obtain ⟨info, -, h⟩ := Option.bind_eq_some_iff.mp h
  obtain ⟨⟨name1, p1⟩, h1, h⟩ := Option.bind_eq_some_iff.mp h
  obtain ⟨⟨name2, p2⟩, h2, h⟩ := Option.bind_eq_some_iff.mp h
  obtain ⟨p3, h3, h⟩ := Option.bind_eq_some_iff.mp h
  cases h
  calc player + size + 4 ≤ p1 := optionalName_le h1
    _ ≤ p2 := optionalName_le h2
    _ ≤ p3 := skipPlayerData_le h3
    _ ≤ skipServiceProvideLength (info / 4 % 4) p3 := skipServiceProvideLength_le _ p3

/-- What is read of a packed player lies between its start and its addresses, or in its fixed part. -/
theorem superPackedPlayer_frame (hb : AgreesOutside W m b) {player addr : ℕ} {name : Bytes}
    (h : superPackedPlayer m player = some (name, addr))
    (havoid : ∀ i, player ≤ i → i < addr ∨ i < player + 16 → ¬ W i) :
    superPackedPlayer b player = some (name, addr) := by
  unfold superPackedPlayer at h
  obtain ⟨size, hsize, h⟩ := Option.bind_eq_some_iff.mp h
  obtain ⟨info, hinfo, h⟩ := Option.bind_eq_some_iff.mp h
  obtain ⟨⟨name1, p1⟩, h1, h⟩ := Option.bind_eq_some_iff.mp h
  obtain ⟨⟨name2, p2⟩, h2, h⟩ := Option.bind_eq_some_iff.mp h
  obtain ⟨p3, h3, h⟩ := Option.bind_eq_some_iff.mp h
  cases h
  have hle1 := optionalName_le h1
  have hle2 := optionalName_le h2
  have hle3 := skipPlayerData_le h3
  have hle4 := skipServiceProvideLength_le (info / 4 % 4) p3
  have hr1 := hb.u32At hsize fun i hi hi' => havoid i hi (Or.inr (by omega))
  have hr2 := hb.u32At hinfo fun i hi hi' => havoid i (by omega) (Or.inr (by omega))
  have hr3 := optionalName_frame hb h1 fun i hi hi' => havoid i (by omega) (Or.inl (by omega))
  have hr4 := optionalName_frame hb h2 fun i hi hi' => havoid i (by omega) (Or.inl (by omega))
  have hr5 := skipPlayerData_frame hb h3 fun i hi hi' => havoid i (by omega) (Or.inl (by omega))
  simp only [superPackedPlayer, hr1, hr2, hr3, hr4, hr5, Option.bind_eq_bind, Option.bind_some]
  rfl

end reading

/-! ### The addresses found -/

section addresses

variable {W : ℕ → Prop} {m b : Bytes} {spas : List (ℕ × ℕ)}

theorem playerAddresses_succ {n player : ℕ} (h : playerAddresses m (n + 1) player = some spas) :
    ∃ size name addr rest, u32At m player = some size ∧ 16 ≤ size ∧
      superPackedPlayer m player = some (name, addr) ∧ addr + 32 ≤ m.length ∧
        playerAddresses m n (addr + 32) = some rest ∧ spas = (addr, 0) :: (addr + 16, 1) :: rest := by
  obtain ⟨size, hsize, h⟩ := Option.bind_eq_some_iff.mp h
  obtain ⟨⟨name, addr⟩, hplayer, h⟩ := Option.bind_eq_some_iff.mp h
  dsimp only at h
  split at h
  · cases h
  · rename_i hok
    obtain ⟨rest, hrest, h⟩ := Option.bind_eq_some_iff.mp h
    cases h
    simp only [sizeofDPAddress] at hok hrest
    exact ⟨size, name, addr, rest, hsize, by omega, hplayer, by omega, hrest, rfl⟩

theorem playerAddresses_bound {n player : ℕ} (h : playerAddresses m n player = some spas) :
    ∀ s ∈ spas, player + 20 ≤ s.1 ∧ s.1 + 16 ≤ m.length := by
  induction n generalizing player spas with
  | zero =>
    cases h
    exact fun s hs => by cases hs
  | succ n ih =>
    obtain ⟨size, name, addr, rest, hsize, hfixed, hplayer, hle, hrest, rfl⟩ := playerAddresses_succ h
    have hge := superPackedPlayer_le hsize hplayer
    intro s hs
    rcases List.mem_cons.mp hs with rfl | hs
    · exact ⟨by omega, by omega⟩
    rcases List.mem_cons.mp hs with rfl | hs
    · exact ⟨by omega, by omega⟩
    · have hs' := ih hrest s hs
      exact ⟨by omega, hs'.2⟩

theorem playerAddresses_count {n player : ℕ} (h : playerAddresses m n player = some spas) :
    n = 0 ∨ player + n ≤ m.length := by
  induction n generalizing player spas with
  | zero => exact Or.inl rfl
  | succ n ih =>
    obtain ⟨size, name, addr, rest, hsize, hfixed, hplayer, hle, hrest, rfl⟩ := playerAddresses_succ h
    have hge := superPackedPlayer_le hsize hplayer
    rcases ih hrest with rfl | hn
    · exact Or.inr (by omega)
    · exact Or.inr (by omega)

theorem playerData_succ {n player : ℕ} (h : playerData m (n + 1) player = some spas) :
    ∃ name addr rest, superPackedPlayer m player = some (name, addr) ∧ player ≤ addr ∧ 32 ≤ addr ∧
      addr + 32 ≤ m.length ∧ playerData m n (addr + 32) = some rest ∧
        spas = (addr, 0) :: (addr + 16, 1) :: rest := by
  obtain ⟨⟨name, addr⟩, hplayer, h⟩ := Option.bind_eq_some_iff.mp h
  obtain ⟨size, hsize, -⟩ := Option.bind_eq_some_iff.mp hplayer
  have hge := superPackedPlayer_le hsize hplayer
  dsimp only at h
  split at h
  · cases h
  · rename_i hok
    obtain ⟨rest, hrest, h⟩ := Option.bind_eq_some_iff.mp h
    cases h
    simp only [sizeofDPAddress] at hok hrest
    exact ⟨name, addr, rest, hplayer, by omega, by omega, by omega, hrest, rfl⟩

theorem playerData_bound {n player : ℕ} (h : playerData m n player = some spas) :
    ∀ s ∈ spas, player ≤ s.1 ∧ 32 ≤ s.1 ∧ s.1 + 16 ≤ m.length := by
  induction n generalizing player spas with
  | zero =>
    cases h
    exact fun s hs => by cases hs
  | succ n ih =>
    obtain ⟨name, addr, rest, hplayer, hge, hbehind, hle, hrest, rfl⟩ := playerData_succ h
    intro s hs
    rcases List.mem_cons.mp hs with rfl | hs
    · exact ⟨hge, hbehind, by dsimp only; omega⟩
    rcases List.mem_cons.mp hs with rfl | hs
    · exact ⟨by dsimp only; omega, by dsimp only; omega, by dsimp only; omega⟩
    · have hs' := ih hrest s hs
      exact ⟨by omega, hs'.2⟩

theorem playerData_count {n player : ℕ} (h : playerData m n player = some spas) :
    n = 0 ∨ player + n ≤ m.length := by
  induction n generalizing player spas with
  | zero => exact Or.inl rfl
  | succ n ih =>
    obtain ⟨name, addr, rest, hplayer, hge, hbehind, hle, hrest, rfl⟩ := playerData_succ h
    rcases ih hrest with rfl | hn
    · exact Or.inr (by omega)
    · exact Or.inr (by omega)

theorem playerData_of_addresses {n player : ℕ} (hplayer : 16 ≤ player)
    (h : playerAddresses m n player = some spas) : playerData m n player = some spas := by
  induction n generalizing player spas with
  | zero => exact h
  | succ n ih =>
    obtain ⟨size, name, addr, rest, hsize, hfixed, hp, hle, hrest, rfl⟩ := playerAddresses_succ h
    have hge := superPackedPlayer_le hsize hp
    rw [playerData, hp, Option.bind_eq_bind, Option.bind_some]
    dsimp only
    rw [if_neg (by rw [sizeofDPAddress]; omega), sizeofDPAddress, ih (by omega) hrest]
    rfl

/-- Between a player and the next one only the two addresses change. -/
theorem avoid_player {player addr : ℕ} {rest : List (ℕ × ℕ)}
    (hW : ∀ i, W i → i < player ∨ ∃ s ∈ (addr, 0) :: (addr + 16, 1) :: rest, Range (s.1 + 2) 6 i)
    (hrest : ∀ s ∈ rest, addr + 32 ≤ s.1) : ∀ i, player ≤ i → i < addr → ¬ W i := by
  intro i hi hi' hw
  rcases hW i hw with hlt | ⟨s, hs, hge, -⟩
  · omega
  rcases List.mem_cons.mp hs with rfl | hs
  · omega
  rcases List.mem_cons.mp hs with rfl | hs
  · omega
  · have := hrest s hs
    omega

theorem changes_after_player {player addr : ℕ} {rest : List (ℕ × ℕ)} (hge : player ≤ addr)
    (hW : ∀ i, W i → i < player ∨ ∃ s ∈ (addr, 0) :: (addr + 16, 1) :: rest, Range (s.1 + 2) 6 i) :
    ∀ i, W i → i < addr + 32 ∨ ∃ s ∈ rest, Range (s.1 + 2) 6 i := by
  intro i hw
  rcases hW i hw with hlt | ⟨s, hs, hr⟩
  · exact Or.inl (by omega)
  rcases List.mem_cons.mp hs with rfl | hs
  · exact Or.inl (by have := hr.2; omega)
  rcases List.mem_cons.mp hs with rfl | hs
  · exact Or.inl (by have := hr.2; omega)
  · exact Or.inr ⟨s, hs, hr⟩

theorem playerAddresses_frame (hb : AgreesOutside W m b) {n player : ℕ}
    (h : playerAddresses m n player = some spas)
    (hW : ∀ i, W i → i < player ∨ ∃ s ∈ spas, Range (s.1 + 2) 6 i) :
    playerAddresses b n player = some spas := by
  induction n generalizing player spas with
  | zero => exact h
  | succ n ih =>
    obtain ⟨size, name, addr, rest, hsize, hfixed, hplayer, hle, hrest, rfl⟩ := playerAddresses_succ h
    have hge := superPackedPlayer_le hsize hplayer
    have havoid : ∀ i, player ≤ i → i < addr → ¬ W i :=
      avoid_player hW fun s hs => by have := (playerAddresses_bound hrest s hs).1; omega
    have hlen := hb.length
    have hr1 := hb.u32At hsize fun i hi hi' => havoid i hi (by omega)
    have hr2 := superPackedPlayer_frame hb hplayer fun i hi hi' => havoid i hi (by omega)
    have hr3 := ih hrest (changes_after_player (by omega) hW)
    have hok : ¬ (size < 16 ∨ b.length < addr + 2 * 16) := by omega
    simp only [playerAddresses, hr1, hr2, Option.bind_eq_bind, Option.bind_some, sizeofDPAddress,
      if_neg hok, hr3]
    rfl

theorem mem_addressRun {n ofs index : ℕ} : ∀ s ∈ addressRun ofs index n,
    ofs ≤ s.1 ∧ s.1 + 16 ≤ ofs + n * 16 := by
  induction n generalizing ofs index with
  | zero => exact fun s hs => by cases hs
  | succ n ih =>
    intro s hs
    rcases List.mem_cons.mp hs with rfl | hs
    · exact ⟨le_refl _, by dsimp only; omega⟩
    · have hs' := ih s hs
      rw [sizeofDPAddress] at hs'
      exact ⟨by omega, by omega⟩

theorem superEnumAddresses_some (h : superEnumAddresses m = some spas) :
    ∃ player_count packed_offset, u32At m 28 = some player_count ∧ u32At m 36 = some packed_offset ∧
      (((packed_offset = 0 ∨ player_count = 0) ∧ spas = []) ∨
        (36 ≤ packed_offset ∧ player_count ≠ 0 ∧
          playerAddresses m player_count (20 + packed_offset) = some spas)) := by
  obtain ⟨count, hcount, h⟩ := Option.bind_eq_some_iff.mp h
  obtain ⟨offset, hoffset, h⟩ := Option.bind_eq_some_iff.mp h
  refine ⟨count, offset, hcount, hoffset, ?_⟩
  split at h
  · rename_i hzero
    cases h
    exact Or.inl ⟨hzero, rfl⟩
  split at h
  · cases h
  · rename_i hne hge
    exact Or.inr ⟨by omega, fun hzero => hne (Or.inr hzero), h⟩

theorem forwardOrCreateAddresses_some (h : forwardOrCreateAddresses m = some spas) :
    ∃ short long size, u32At m 60 = some short ∧ u32At m 64 = some long ∧ u32At m 68 = some size ∧
      ((size = 0 ∧ spas = []) ∨
        (size ≠ 0 ∧ nameFits m 96 short = true ∧ nameFits m (96 + short) long = true ∧
          96 + short + long + (size + 15) / 16 * 16 ≤ m.length ∧
            spas = addressRun (96 + short + long) 0 ((size + 15) / 16))) := by
  obtain ⟨short, hshort, h⟩ := Option.bind_eq_some_iff.mp h
  obtain ⟨long, hlong, h⟩ := Option.bind_eq_some_iff.mp h
  obtain ⟨size, hsize, h⟩ := Option.bind_eq_some_iff.mp h
  refine ⟨short, long, size, hshort, hlong, hsize, ?_⟩
  split at h
  · rename_i hzero
    cases h
    exact Or.inl ⟨hzero, rfl⟩
  · rename_i hne
    dsimp only at h
    split at h
    · rename_i hok
      cases h
      exact Or.inr ⟨hne, hok.1, hok.2.1, hok.2.2, rfl⟩
    · cases h

theorem superEnumAddresses_bound (h : superEnumAddresses m = some spas) :
    ∀ s ∈ spas, 56 ≤ s.1 ∧ s.1 + 16 ≤ m.length := by
  obtain ⟨count, offset, -, -, ⟨-, rfl⟩ | ⟨hge, -, hplayers⟩⟩ := superEnumAddresses_some h
  · exact fun s hs => by cases hs
  · intro s hs
    have hs' := playerAddresses_bound hplayers s hs
    exact ⟨by omega, hs'.2⟩

theorem superEnumData_some (h : superEnumData m = some spas) :
    ∃ player_count packed_offset, u32At m 28 = some player_count ∧ u32At m 36 = some packed_offset ∧
      ((packed_offset = 0 ∧ spas = []) ∨
        (packed_offset ≠ 0 ∧ playerData m player_count (20 + packed_offset) = some spas)) := by
  obtain ⟨count, hcount, h⟩ := Option.bind_eq_some_iff.mp h
  obtain ⟨offset, hoffset, h⟩ := Option.bind_eq_some_iff.mp h
  refine ⟨count, offset, hcount, hoffset, ?_⟩
  split at h
  · rename_i hzero
    cases h
    exact Or.inl ⟨hzero, rfl⟩
  · rename_i hne
    exact Or.inr ⟨hne, h⟩

theorem superEnumData_of_addresses (h : superEnumAddresses m = some spas) : superEnumData m = some spas := by
  obtain ⟨count, offset, hcount, hoffset, hcases⟩ := superEnumAddresses_some h
  simp only [superEnumData, hcount, hoffset, Option.bind_eq_bind, Option.bind_some]
  rcases hcases with ⟨hzero, rfl⟩ | ⟨hge, -, hplayers⟩
  · by_cases hoffset : offset = 0
    · rw [if_pos hoffset]
      rfl
    · rw [if_neg hoffset, hzero.resolve_left hoffset]
      rfl
  · rw [if_neg (by omega)]
    exact playerData_of_addresses (by omega) hplayers

theorem superEnumData_bound (h : superEnumData m = some spas) : ∀ s ∈ spas, 32 ≤ s.1 ∧ s.1 + 16 ≤ m.length := by
  obtain ⟨count, offset, -, -, ⟨-, rfl⟩ | ⟨-, hplayers⟩⟩ := superEnumData_some h
  · exact fun s hs => by cases hs
  · exact fun s hs => (playerData_bound hplayers s hs).2

theorem forwardOrCreateData_some (h : forwardOrCreateData m = some spas) :
    ∃ short long size, u32At m 60 = some short ∧ u32At m 64 = some long ∧ u32At m 68 = some size ∧
      ((size = 0 ∧ spas = []) ∨
        (size ≠ 0 ∧ 96 + short + long + (size + 15) / 16 * 16 ≤ m.length ∧
          spas = addressRun (96 + short + long) 0 ((size + 15) / 16))) := by
  obtain ⟨short, hshort, h⟩ := Option.bind_eq_some_iff.mp h
  obtain ⟨long, hlong, h⟩ := Option.bind_eq_some_iff.mp h
  obtain ⟨size, hsize, h⟩ := Option.bind_eq_some_iff.mp h
  refine ⟨short, long, size, hshort, hlong, hsize, ?_⟩
  split at h
  · rename_i hzero
    cases h
    exact Or.inl ⟨hzero, rfl⟩
  · rename_i hne
    dsimp only at h
    split at h
    · rename_i hle
      cases h
      exact Or.inr ⟨hne, hle, rfl⟩
    · cases h

theorem forwardOrCreateData_of_addresses (h : forwardOrCreateAddresses m = some spas) :
    forwardOrCreateData m = some spas := by
  obtain ⟨short, long, size, hshort, hlong, hsize, hcases⟩ := forwardOrCreateAddresses_some h
  simp only [forwardOrCreateData, hshort, hlong, hsize, Option.bind_eq_bind, Option.bind_some]
  rcases hcases with ⟨hzero, rfl⟩ | ⟨hne, -, -, hle, rfl⟩
  · rw [if_pos hzero]
    rfl
  · rw [if_neg hne]
    exact if_pos hle

theorem addressData_of_spAddresses (h : spAddresses m = some spas) : addressData m = some spas := by
  obtain ⟨command, hcommand, h⟩ := Option.bind_eq_some_iff.mp h
  rw [addressData, hcommand, Option.bind_eq_bind, Option.bind_some]
  split at h
  · rename_i hc
    rw [if_pos hc]
    exact superEnumData_of_addresses h
  rename_i hc
  rw [if_neg hc]
  split at h
  · rename_i hc
    rw [if_pos hc]
    exact forwardOrCreateData_of_addresses h
  rename_i hc
  rw [if_neg hc]
  split at h
  · obtain ⟨_, -, rfl⟩ := Option.map_eq_some_iff.mp h
    rfl
  · exact h

theorem forwardOrCreateData_bound (h : forwardOrCreateData m = some spas) :
    ∀ s ∈ spas, 32 ≤ s.1 ∧ s.1 + 16 ≤ m.length := by
  obtain ⟨short, long, size, -, -, -, ⟨-, rfl⟩ | ⟨-, hle, rfl⟩⟩ := forwardOrCreateData_some h
  · exact fun s hs => by cases hs
  · intro s hs
    have hs' := mem_addressRun s hs
    exact ⟨by omega, by omega⟩

theorem addressData_bound (h : addressData m = some spas) :
    ∀ s ∈ spas, 32 ≤ s.1 ∧ s.1 + 16 ≤ m.length := by
  obtain ⟨command, -, h⟩ := Option.bind_eq_some_iff.mp h
  split at h
  · exact superEnumData_bound h
  split at h
  · exact forwardOrCreateData_bound h
  · cases h
    exact fun s hs => by cases hs

/-- The header but its address, and the fixed parts behind it, are no address fields. -/
theorem not_addressFields {ofs i : ℕ} (hspas : ∀ s ∈ spas, ofs ≤ s.1)
    (hi : i < 6 ∨ (12 ≤ i ∧ i < ofs + 2)) (h6 : 6 ≤ ofs) : ¬ AddressFields spas i := by
  intro h
  obtain hr | ⟨s, hs, hr⟩ := h
  · have := hr.1
    have := hr.2
    omega
  · have := hspas s hs
    have := hr.1
    omega

theorem not_addressFields_nil {i : ℕ} (hi : 12 ≤ i) : ¬ AddressFields [] i := by
  intro h
  obtain hr | ⟨s, hs, -⟩ := h
  · have := hr.2
    omega
  · cases hs

theorem superEnumAddresses_frame (hb : AgreesOutside (AddressFields spas) m b)
    (h : superEnumAddresses m = some spas) : superEnumAddresses b = some spas := by
  have hbound := superEnumAddresses_bound h
  have havoid : ∀ i, 12 ≤ i → i < 56 → ¬ AddressFields spas i := fun i hi hi' =>
    @not_addressFields spas 56 i (fun s hs => (hbound s hs).1) (Or.inr ⟨hi, by omega⟩) (by omega)
  obtain ⟨count, offset, hcount, hoffset, hcases⟩ := superEnumAddresses_some h
  have hr1 := hb.u32At hcount fun i hi hi' => havoid i (by omega) (by omega)
  have hr2 := hb.u32At hoffset fun i hi hi' => havoid i (by omega) (by omega)
  simp only [superEnumAddresses, hr1, hr2, Option.bind_eq_bind, Option.bind_some]
  rcases hcases with ⟨hzero, rfl⟩ | ⟨hge, hpos, hplayers⟩
  · rw [if_pos hzero]
    rfl
  · rw [if_neg (by omega), if_neg (by omega)]
    refine playerAddresses_frame hb hplayers ?_
    intro i hx
    obtain hr | hs := hx
    · exact Or.inl (by have := hr.2; omega)
    · exact Or.inr hs

theorem nameFits_frame {W : ℕ → Prop} (hb : AgreesOutside W m b) {ofs length : ℕ}
    (h : nameFits m ofs length = true) (havoid : ∀ i, ofs ≤ i → i < ofs + length → ¬ W i) :
    nameFits b ofs length = true := by
  rw [nameFits_iff] at h ⊢
  intro hpos
  obtain ⟨name, p, hname, hp⟩ := h hpos
  exact ⟨name, p, cwStr_frame hb hname fun i hi hi' => havoid i hi (by omega), hp⟩

theorem forwardOrCreateAddresses_frame (hb : AgreesOutside (AddressFields spas) m b)
    (h : forwardOrCreateAddresses m = some spas) : forwardOrCreateAddresses b = some spas := by
  obtain ⟨short, long, size, hshort, hlong, hsize, hcases⟩ := forwardOrCreateAddresses_some h
  have hspas : ∀ s ∈ spas, 96 + short + long ≤ s.1 := by
    rcases hcases with ⟨-, rfl⟩ | ⟨-, -, -, -, rfl⟩
    · exact fun s hs => by cases hs
    · exact fun s hs => (mem_addressRun s hs).1
  have havoid : ∀ i, 12 ≤ i → i < 96 + short + long → ¬ AddressFields spas i := fun i hi hi' =>
    not_addressFields hspas (Or.inr ⟨hi, by omega⟩) (by omega)
  have hr1 := hb.u32At hshort fun i hi hi' => havoid i (by omega) (by omega)
  have hr2 := hb.u32At hlong fun i hi hi' => havoid i (by omega) (by omega)
  have hr3 := hb.u32At hsize fun i hi hi' => havoid i (by omega) (by omega)
  simp only [forwardOrCreateAddresses, hr1, hr2, hr3, Option.bind_eq_bind, Option.bind_some]
  rcases hcases with ⟨hzero, rfl⟩ | ⟨hne, hname1, hname2, hle, rfl⟩
  · rw [if_pos hzero]
    rfl
  · have hlen := hb.length
    have hn1 := nameFits_frame hb hname1 fun i hi hi' => havoid i (by omega) (by omega)
    have hn2 := nameFits_frame hb hname2 fun i hi hi' => havoid i (by omega) (by omega)
    rw [if_neg hne, if_pos ⟨hn1, hn2, by rw [sizeofDPAddress]; omega⟩]
    rfl

end addresses

/-! ### The header -/

section header

variable {m b : Bytes} {spas : List (ℕ × ℕ)}

theorem looksOk_inv (h : DPHeader.looksOk m = some true) :
    ∃ word, u16At m 4 = some 2 ∧ u32At m 0 = some word ∧ 28 ≤ word % 2 ^ 20 := by
  obtain ⟨family, hfamily, h⟩ := Option.bind_eq_some_iff.mp h
  split at h
  · cases h
  · rename_i h2
    obtain ⟨token, htoken, h⟩ := Option.bind_eq_some_iff.mp h
    obtain ⟨size, hsize, h⟩ := Option.bind_eq_some_iff.mp h
    obtain ⟨word, hword, rfl⟩ := Option.map_eq_some_iff.mp hsize
    have hok := of_decide_eq_true (Option.some.inj h)
    exact ⟨word, by rw [hfamily, not_not.mp h2], hword, hok.2⟩

theorem AddressedMessage.bound (h : AddressedMessage m spas) : ∀ s ∈ spas, 32 ≤ s.1 ∧ s.1 + 16 ≤ m.length :=
  addressData_bound h.addresses

theorem AddressedMessage.length_ge (h : AddressedMessage m spas) : 28 ≤ m.length := by
  obtain ⟨word, -, hword, hge⟩ := looksOk_inv h.looksOk
  have hsize := h.size
  rw [DPHeader.size, hword, Option.map_some, Option.some.injEq] at hsize
  omega

/-- Before the address of the header and behind it nothing of it changes. -/
theorem AddressedMessage.header_avoid (h : AddressedMessage m spas) {i : ℕ} (hi : i < 6 ∨ (12 ≤ i ∧ i < 34)) :
    ¬ AddressFields spas i :=
  @not_addressFields spas 32 i (fun s hs => (h.bound s hs).1) (hi.imp_right fun hi => ⟨hi.1, by omega⟩)
    (by omega)

theorem looksOk_frame {W : ℕ → Prop} (hb : AgreesOutside W m b) (havoid : ∀ i < 6, ¬ W i)
    (h : DPHeader.looksOk m = some true) : DPHeader.looksOk b = some true := by
  obtain ⟨word, hfamily, hword, -⟩ := looksOk_inv h
  have hr1 := hb.u16At hfamily fun i _ hi => havoid i (by omega)
  have hr2 := hb.u32At hword fun i _ hi => havoid i (by omega)
  rw [DPHeader.looksOk, DPHeader.token, DPHeader.size, hfamily, hword] at h
  rw [DPHeader.looksOk, DPHeader.token, DPHeader.size, hr1, hr2]
  exact h

/-- What the header says, in any bytes that agree with the message but for its addresses. -/
theorem AddressedMessage.header (h : AddressedMessage m spas) (hb : AgreesOutside (AddressFields spas) m b) :
    DPHeader.looksOk b = some true ∧ DPHeader.size b = some m.length ∧
      ∃ command, DPHeader.command m = some command ∧ DPHeader.command b = some command := by
  obtain ⟨word, -, hword, -⟩ := looksOk_inv h.looksOk
  have hr2 := hb.u32At hword fun i _ hi => h.header_avoid (Or.inl (by omega))
  have hsize := h.size
  rw [DPHeader.size, hword] at hsize
  obtain ⟨command, hcommand, -⟩ := Option.bind_eq_some_iff.mp h.addresses
  refine ⟨looksOk_frame hb (fun i hi => h.header_avoid (Or.inl hi)) h.looksOk, ?_,
    command, hcommand, hb.u16At hcommand fun i hi hi' => h.header_avoid (Or.inr ⟨by omega, by omega⟩)⟩
  rw [DPHeader.size, hr2]
  exact hsize

theorem AddressedMessage.actionstring (h : AddressedMessage m spas) (hb : AgreesOutside (AddressFields spas) m b)
    {action : Bytes} (haction : DPHeader.actionstring m = some action) : DPHeader.actionstring b = some action :=
  hb.sliceAt haction fun i hi hi' => h.header_avoid (Or.inr ⟨by omega, by omega⟩)

theorem ControlMessage.addressed (h : ControlMessage m spas) : AddressedMessage m spas :=
  ⟨h.looksOk, h.size, addressData_of_spAddresses h.addresses⟩

theorem ControlMessage.length_ge (h : ControlMessage m spas) : 28 ≤ m.length := h.addressed.length_ge

theorem ControlMessage.header (h : ControlMessage m spas) (hb : AgreesOutside (AddressFields spas) m b) :
    DPHeader.looksOk b = some true ∧ DPHeader.actionstring b = some playString ∧
      DPHeader.size b = some m.length ∧ ∃ command, DPHeader.command m = some command ∧
        DPHeader.command b = some command := by
  obtain ⟨hok, hsize, hcommand⟩ := h.addressed.header hb
  exact ⟨hok, h.addressed.actionstring hb h.actionstring, hsize, hcommand⟩

/-- The addresses of a message can be changed without making it another message. -/
theorem ControlMessage.frame (h : ControlMessage m spas) (hb : SameOutside (AddressFields spas) m b) :
    ControlMessage b spas := by
  have hagree := hb.agreesSelf
  obtain ⟨hok, haction, hsize, command, hcommand, hcommand'⟩ := h.header hagree
  refine ⟨hok, haction, by rw [hsize, hb.length], ?_⟩
  have haddr := h.addresses
  rw [spAddresses, hcommand, Option.bind_eq_bind, Option.bind_some] at haddr
  rw [spAddresses, hcommand', Option.bind_eq_bind, Option.bind_some]
  split at haddr
  · rename_i hc
    rw [if_pos hc]
    exact superEnumAddresses_frame hagree haddr
  rename_i hc
  rw [if_neg hc]
  split at haddr
  · rename_i hc
    rw [if_pos hc]
    exact forwardOrCreateAddresses_frame hagree haddr
  rename_i hc
  rw [if_neg hc]
  split at haddr
  · rename_i hc
    obtain ⟨id, hid, rfl⟩ := Option.map_eq_some_iff.mp haddr
    rw [if_pos hc, hagree.u32At hid fun i hi _ => not_addressFields_nil (by omega)]
    rfl
  · rename_i hc
    rw [if_neg hc]
    exact haddr

end header

/-! ### What the parser reports -/

section parser

open TAPacketParser

variable {m : Bytes} {spas : List (ℕ × ℕ)}

theorem parsePlayers_agree {n player : ℕ} (h : playerAddresses m n player = some spas) :
    ∃ calls, ∀ (W : ℕ → Prop) (b : Bytes) (k fuel : ℕ), AgreesOutside W m b →
      (∀ i, W i → i < player ∨ ∃ s ∈ spas, Range (s.1 + 2) 6 i) → u32At b 28 = some (k + n) →
        n < fuel → parsePlayers b fuel player k = some calls := by
  induction n generalizing player spas with
  | zero =>
    refine ⟨[], fun W b k fuel _ _ hcount hfuel => ?_⟩
    obtain ⟨fuel, rfl⟩ : ∃ f, fuel = f + 1 := ⟨fuel - 1, by omega⟩
    simp only [parsePlayers, hcount, Option.bind_eq_bind, Option.bind_some, add_zero, lt_irrefl, if_false]
    rfl
  | succ n ih =>
    obtain ⟨size, name, addr, rest, hsize, hfixed, hplayer, hle, hrest, rfl⟩ := playerAddresses_succ h
    have hge := superPackedPlayer_le hsize hplayer
    obtain ⟨calls, hcalls⟩ := ih hrest
    obtain ⟨id, hid⟩ : ∃ id, u32At m (player + 8) = some id := by
      refine ⟨leVal ((m.drop (player + 8)).take 4), ?_⟩
      rw [u32At, sliceAt_eq_some.mpr ⟨by omega, rfl⟩, Option.map_some]
    refine ⟨.onDplaySuperEnumPlayerReply id name :: calls, fun W b k fuel hb hW hcount hfuel => ?_⟩
    obtain ⟨fuel, rfl⟩ : ∃ f, fuel = f + 1 := ⟨fuel - 1, by omega⟩
    have havoid : ∀ i, player ≤ i → i < addr → ¬ W i :=
      avoid_player hW fun s hs => by have := (playerAddresses_bound hrest s hs).1; omega
    have hr1 := superPackedPlayer_frame hb hplayer fun i hi hi' => havoid i hi (by omega)
    have hr2 := hb.u32At hid fun i hi hi' => havoid i (by omega) (by omega)
    have hr3 := hcalls W b (k + 1) fuel hb (changes_after_player (by omega) hW)
      (by rw [hcount]; congr 1; omega) (by omega)
    simp only [parsePlayers, hcount, Option.bind_eq_bind, Option.bind_some, if_pos (show k < k + (n + 1) by omega),
      hr1, hr2, sizeofDPAddress]
    rw [hr3]
    rfl

theorem parseDplaySuperEnumReply_agree (h : superEnumAddresses m = some spas) :
    ∃ calls, ∀ b, AgreesOutside (AddressFields spas) m b → parseDplaySuperEnumReply b = some calls := by
  have hbound := superEnumAddresses_bound h
  have havoid : ∀ i, 12 ≤ i → i < 56 → ¬ AddressFields spas i := fun i hi hi' =>
    @not_addressFields spas 56 i (fun s hs => (hbound s hs).1) (Or.inr ⟨hi, by omega⟩) (by omega)
  obtain ⟨count, offset, hcount, hoffset, hcases⟩ := superEnumAddresses_some h
  rcases hcases with ⟨hzero, rfl⟩ | ⟨hge, -, hplayers⟩
  · refine ⟨[], fun b hb => ?_⟩
    have hr := hb.u32At hoffset fun i hi hi' => havoid i (by omega) (by omega)
    simp only [parseDplaySuperEnumReply, hr, Option.bind_eq_bind, Option.bind_some]
    split
    · rfl
    · rename_i hne
      have hcount' := hb.u32At hcount fun i hi hi' => havoid i (by omega) (by omega)
      rw [hzero.resolve_left hne] at hcount'
      rw [parsePlayers, hcount']
      rfl
  · obtain ⟨calls, hcalls⟩ := parsePlayers_agree hplayers
    refine ⟨calls, fun b hb => ?_⟩
    have hr1 := hb.u32At hoffset fun i hi hi' => havoid i (by omega) (by omega)
    have hr2 := hb.u32At hcount fun i hi hi' => havoid i (by omega) (by omega)
    have hlen := hb.length
    simp only [parseDplaySuperEnumReply, hr1, Option.bind_eq_bind, Option.bind_some,
      if_neg (show ¬ offset = 0 by omega)]
    refine hcalls _ b 0 _ hb ?_ (by rw [hr2, zero_add]) ?_
    · intro i hx
      obtain hr | hs := hx
      · exact Or.inl (by have := hr.2; omega)
      · exact Or.inr hs
    · rcases playerAddresses_count hplayers with hn | hn <;> omega

theorem name_agree {ofs length : ℕ} (default : Bytes) (h : nameFits m ofs length = true) :
    ∃ name, ∀ (W : ℕ → Prop) (b : Bytes), AgreesOutside W m b →
      (∀ i, ofs ≤ i → i < ofs + length → ¬ W i) →
        (if 0 < length then getCWStr b ofs else some default) = some name := by
  by_cases hpos : 0 < length
  · obtain ⟨name, p, hname, hp⟩ := nameFits_iff.mp h hpos
    refine ⟨name, fun W b hb havoid => ?_⟩
    rw [if_pos hpos, getCWStr, cwStr_frame hb hname fun i hi hi' => havoid i hi (by omega)]
    rfl
  · exact ⟨default, fun W b hb havoid => if_neg hpos⟩

theorem parseDplayCreateOrForwardPlayer_agree {command : ℕ} (h : forwardOrCreateAddresses m = some spas)
    (hcommand : DPHeader.command m = some command) :
    ∃ calls, ∀ b, AgreesOutside (AddressFields spas) m b →
      parseDplayCreateOrForwardPlayer b = some calls := by
  obtain ⟨short, long, size, hshort, hlong, hsize, hcases⟩ := forwardOrCreateAddresses_some h
  have hspas : ∀ s ∈ spas, 96 + short + long ≤ s.1 := by
    rcases hcases with ⟨-, rfl⟩ | ⟨-, -, -, -, rfl⟩
    · exact fun s hs => by cases hs
    · exact fun s hs => (mem_addressRun s hs).1
  have havoid : ∀ i, 12 ≤ i → i < 96 + short + long → ¬ AddressFields spas i := fun i hi hi' =>
    not_addressFields hspas (Or.inr ⟨hi, by omega⟩) (by omega)
  rcases hcases with ⟨rfl, rfl⟩ | ⟨hne, hname1, hname2, hle, -⟩
  · refine ⟨[], fun b hb => ?_⟩
    have hr := hb.u32At hsize fun i hi hi' => havoid i (by omega) (by omega)
    simp only [parseDplayCreateOrForwardPlayer, hr, Option.bind_eq_bind, Option.bind_some, if_true]
    rfl
  · obtain ⟨id, hid⟩ : ∃ id, u32At m 32 = some id := by
      refine ⟨leVal ((m.drop 32).take 4), ?_⟩
      rw [u32At, sliceAt_eq_some.mpr ⟨by omega, rfl⟩, Option.map_some]
    obtain ⟨name1, hread1⟩ := name_agree [] hname1
    obtain ⟨name2, hread2⟩ := name_agree name1 hname2
    refine ⟨[.onDplayCreateOrForwardPlayer command id name2], fun b hb => ?_⟩
    have hr1 := hb.u32At hshort fun i hi hi' => havoid i (by omega) (by omega)
    have hr2 := hb.u32At hlong fun i hi hi' => havoid i (by omega) (by omega)
    have hr3 := hb.u32At hsize fun i hi hi' => havoid i (by omega) (by omega)
    have hr4 := hb.u32At hid fun i hi hi' => havoid i (by omega) (by omega)
    have hr5 := hb.u16At hcommand fun i hi hi' => havoid i (by omega) (by omega)
    have hn1 := hread1 _ b hb fun i hi hi' => havoid i (by omega) (by omega)
    have hn2 := hread2 _ b hb fun i hi hi' => havoid i (by omega) (by omega)
    simp only [parseDplayCreateOrForwardPlayer, hr1, hr2, hr3, hr4, Option.bind_eq_bind,
      Option.bind_some, if_neg hne]
    have hcommand' : ∀ name, ((DPHeader.command b).bind fun command =>
        (pure [.onDplayCreateOrForwardPlayer command id name] : Option (List HandlerCall))) =
          some [.onDplayCreateOrForwardPlayer command id name] := by
      intro name
      rw [DPHeader.command, hr5]
      rfl
    by_cases hs : 0 < short
    · rw [if_pos hs] at hn1
      rw [if_pos hs, hn1, Option.bind_some]
      by_cases hl : 0 < long
      · rw [if_pos hl] at hn2
        rw [if_pos hl, hn2, Option.bind_some, hcommand']
      · rw [if_neg hl] at hn2
        rw [if_neg hl, hcommand', Option.some.inj hn2]
    · rw [if_neg hs] at hn1
      obtain rfl := Option.some.inj hn1
      rw [if_neg hs]
      by_cases hl : 0 < long
      · rw [if_pos hl] at hn2
        rw [if_pos hl, hn2, Option.bind_some, hcommand']
      · rw [if_neg hl] at hn2
        rw [if_neg hl, hcommand', Option.some.inj hn2]

theorem ControlMessage.calls (h : ControlMessage m spas) :
    ∃ calls, ∀ b, AgreesOutside (AddressFields spas) m b → parseDplayPacket b = some calls := by
  have haddr := h.addresses
  obtain ⟨command, hcommand, -⟩ := Option.bind_eq_some_iff.mp haddr
  rw [spAddresses, hcommand, Option.bind_eq_bind, Option.bind_some] at haddr
  have hheader : ∀ b, AgreesOutside (AddressFields spas) m b → DPHeader.command b = some command := by
    intro b hb
    obtain ⟨-, -, -, command', hc, hc'⟩ := h.header hb
    rw [hc', ← hc, hcommand]
  split at haddr
  · rename_i hc
    obtain ⟨calls, hcalls⟩ := parseDplaySuperEnumReply_agree haddr
    refine ⟨calls, fun b hb => ?_⟩
    rw [parseDplayPacket, hheader b hb, Option.bind_eq_bind, Option.bind_some, if_pos hc]
    exact hcalls b hb
  rename_i hc
  split at haddr
  · rename_i hc'
    obtain ⟨calls, hcalls⟩ := parseDplayCreateOrForwardPlayer_agree haddr hcommand
    refine ⟨calls, fun b hb => ?_⟩
    rw [parseDplayPacket, hheader b hb, Option.bind_eq_bind, Option.bind_some, if_neg hc, if_pos hc']
    exact hcalls b hb
  rename_i hc'
  split at haddr
  · rename_i hdelete
    obtain ⟨id, hid, rfl⟩ := Option.map_eq_some_iff.mp haddr
    refine ⟨[.onDplayDeletePlayer id], fun b hb => ?_⟩
    have hr := hb.u32At hid fun i hi _ => not_addressFields_nil (by omega)
    rw [parseDplayPacket, hheader b hb, Option.bind_eq_bind, Option.bind_some, if_neg hc, if_neg hc',
      if_pos hdelete, parseDplayDeletePlayer, hr]
    rfl
  · rename_i hdelete
    refine ⟨[], fun b hb => ?_⟩
    rw [parseDplayPacket, hheader b hb, Option.bind_eq_bind, Option.bind_some, if_neg hc, if_neg hc',
      if_neg hdelete]
    rfl

/-! ### Buffers of messages -/

/-- In front of anything, `m` is a message of which the parser reports `calls`. -/
def Reports (m : Bytes) (calls : List HandlerCall) : Prop :=
  28 ≤ m.length ∧ ∀ more, DPHeader.looksOk (m ++ more) = some true ∧
    DPHeader.actionstring (m ++ more) = some playString ∧ DPHeader.size (m ++ more) = some m.length ∧
      parseDplayPacket (m ++ more) = some calls

/-- A message and what it becomes when its addresses change report the same. -/
theorem ControlMessage.reports (h : ControlMessage m spas) :
    ∃ calls, ∀ m', SameOutside (AddressFields spas) m m' → Reports m' calls := by
  obtain ⟨calls, hcalls⟩ := h.calls
  refine ⟨calls, fun m' hm' => ⟨hm'.length.symm ▸ h.length_ge, fun more => ?_⟩⟩
  have hagree : AgreesOutside (AddressFields spas) m (m' ++ more) := (hm'.append more).agrees
  obtain ⟨hok, haction, hsize, -⟩ := h.header hagree
  exact ⟨hok, haction, by rw [hsize, hm'.length], hcalls _ hagree⟩

theorem tell_tell (p : TAPacketParser) (calls calls' : List HandlerCall) :
    (p.tell calls).tell calls' = p.tell (calls ++ calls') := by
  show { p with calls := (p.calls ++ calls) ++ calls' } = _
  rw [List.append_assoc]
  rfl

theorem tell_nil (p : TAPacketParser) : p.tell [] = p := by
  show { p with calls := p.calls ++ [] } = _
  rw [List.append_nil]

theorem parseLoop_reports {ms : List Bytes} {cs : List (List HandlerCall)}
    (h : List.Forall₂ Reports ms cs) (isLocalSource : Bool) (data tail : Bytes) (fuel : ℕ)
    (hfuel : ms.flatten.length < fuel) (p : TAPacketParser) :
    parseLoop isLocalSource data fuel ms.flatten.length (ms.flatten ++ tail) p =
      some (p.tell cs.flatten) := by
  induction h generalizing fuel p with
  | nil =>
    obtain ⟨fuel, rfl⟩ : ∃ f, fuel = f + 1 := ⟨fuel - 1, by simp at hfuel; omega⟩
    simp [parseLoop, tell_nil]
  | @cons m calls ms cs hm _ ih =>
    obtain ⟨hlen, hm⟩ := hm
    obtain ⟨hok, haction, hsize, hparse⟩ := hm (ms.flatten ++ tail)
    rw [List.flatten_cons, List.length_append] at hfuel ⊢
    obtain ⟨fuel, rfl⟩ : ∃ f, fuel = f + 1 := ⟨fuel - 1, by omega⟩
    rw [List.append_assoc, List.flatten_cons, parseLoop, if_neg (by omega)]
    simp only [hok, haction, hsize, hparse, Option.bind_eq_bind, Option.bind_some, Bool.not_true,
      Bool.false_eq_true, false_and, if_false, if_true, Option.map_some]
    rw [Nat.add_sub_cancel_left, List.drop_left, ih fuel (by omega), tell_tell]

/-- The parser finds the calls of the messages one after the other. -/
theorem parseGameData_reports {ms : List Bytes} {cs : List (List HandlerCall)}
    (h : List.Forall₂ Reports ms cs) (p : TAPacketParser) (isLocalSource : Bool) :
    p.parseGameData isLocalSource ms.flatten =
      some (TAPacketParser.tell { p with parsedSubPacketCodes := [] } cs.flatten) :=
  parseLoop_reports h isLocalSource ms.flatten [0] _ (Nat.lt_succ_self _) _

end parser

end Gpgnet4TA.Tapacket
