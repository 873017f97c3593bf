import Gpgnet4TA.Tapacket.DemoRoundTrip
import Gpgnet4TA.Tareplay.PlayerStatus

/-!
# Reading the headers of a demo back

The compiler and the parser have their own limits. `Legible` are the headers that are
within both.
-/

namespace Gpgnet4TA.Tareplay.TaDemoCompiler
open Gpgnet4TA.Lib Gpgnet4TA.Tapacket

/-! ### What is written -/

def dplayid (user : UserContext) : ℕ := leVal ((user.gamePlayerInfo.statusMessage.drop 0x91).take 4)

/-- The values of the headers, as the handlers of a parser take them. -/
def writtenValues (game : GameContext) (users : List UserContext) : List Callback :=
  [.header ⟨tadMagic, 5, users.length, game.header.maxUnits.toNat, game.header.mapName.take 64⟩] ++
    (users.zipIdx.map fun u =>
      .player { demoPlayer u.1 with name := u.1.gamePlayerInfo.name.take 16 } u.2 users.length) ++
    (users.zipIdx.map fun u => .playerStatusMessage
      ⟨UInt8.ofNat u.1.gamePlayerNumber, u.1.gamePlayerInfo.statusMessage⟩ (dplayid u.1) u.2 users.length) ++
    [.unitData ⟨game.unitData.concat⟩]

structure Legible (game : GameContext) (users : List UserContext) : Prop where
  players : users.length ≤ 10
  maxUnits : game.header.maxUnits.toNat ≤ 5000
  mapName : (game.header.mapName.take 64).all isprint = true
  names : ∀ user ∈ users, 0 ∉ user.gamePlayerInfo.name.take 16
  statuses : ∀ user ∈ users, user.gamePlayerInfo.statusMessage ≠ []
  unitData : 0 < game.unitData.concat.length ∧ game.unitData.concat.length ≤ 32766

/-- A player has sent no status message yet or one of the full size. -/
def StatusSized (user : UserContext) : Prop :=
  user.gamePlayerInfo.statusMessage = [] ∨ user.gamePlayerInfo.statusMessage.length = 192

section records

variable {game : GameContext} {users : List UserContext} {date : Vector Byte 10}

/-- The header as it is read. -/
def readHeader (game : GameContext) (users : List UserContext) : Header :=
  (demoHeader game users.length).readBack

theorem load_demoHeader {h : Header} (hload : Header.load (demoHeader game users.length).serialise = .ok h) :
    h = readHeader game users ∧ users.length % 256 ≤ 10 ∧ game.header.maxUnits.toNat ≤ 5000 ∧
      (readHeader game users).mapName.all isprint = true := by
  have hunits : (demoHeader game users.length).maxUnits < 2 ^ 16 := game.header.maxUnits.toNat_lt
  have hplayers : (demoHeader game users.length).numPlayers < 256 := Nat.mod_lt _ (by omega)
  rw [load_header rfl rfl hplayers hunits] at hload
  split at hload
  · cases hload
  · rename_i hten
    split at hload
    · cases hload
    · rename_i hmany
      split at hload
      · cases hload
      · rename_i hprint
        cases hload
        refine ⟨rfl, not_lt.mp hten, not_lt.mp hmany, ?_⟩
        rw [readHeader, List.all_eq_not_any_not]
        simpa using hprint

theorem load_demoHeader_of (hplayers : users.length ≤ 10) (hunits : game.header.maxUnits.toNat ≤ 5000)
    (hname : (readHeader game users).mapName.all isprint = true) :
    Header.load (demoHeader game users.length).serialise = .ok (readHeader game users) := by
  have hunits' : (demoHeader game users.length).maxUnits < 2 ^ 16 := game.header.maxUnits.toNat_lt
  have hplayers' : (demoHeader game users.length).numPlayers < 256 := Nat.mod_lt _ (by omega)
  have hten : ¬ 10 < (demoHeader game users.length).numPlayers := by
    show ¬ 10 < users.length % 256
    omega
  have hprint : ¬ (demoHeader game users.length).readBack.mapName.any (!isprint ·) = true := by
    rw [readHeader, List.all_eq_not_any_not] at hname
    simpa using hname
  have hmany : ¬ 5000 < (demoHeader game users.length).maxUnits := not_lt.mpr hunits
  rw [load_header rfl rfl hplayers' hunits', if_neg hten, if_neg hmany, if_neg hprint]
  rfl

theorem cString_eq_self {bs : Bytes} : cString bs = bs ↔ 0 ∉ bs := by
  rw [cString, List.takeWhile_eq_self_iff]
  constructor
  · intro h hmem
    have hbad := h 0 hmem
    simp at hbad
  · intro h b hb
    have hne : b ≠ 0 := fun hzero => h (hzero ▸ hb)
    simpa using hne

theorem uint32At_status {user : UserContext} (h : user.gamePlayerInfo.statusMessage.length = 192) :
    uint32At user.gamePlayerInfo.statusMessage 0x91 = .ok (dplayid user) := by
  have hslice : sliceAt (user.gamePlayerInfo.statusMessage ++ [0]) 0x91 4 =
      some ((user.gamePlayerInfo.statusMessage.drop 0x91).take 4) := by
    rw [sliceAt, if_pos (by rw [List.length_append, h]; omega),
      List.drop_append_of_le_length (by omega),
      List.take_append_of_le_length (by rw [List.length_drop, h]; omega)]
  rw [uint32At, u32At, hslice]
  rfl

/-- The status record of a player as it is read. -/
def readStatus (user : UserContext) : PlayerStatusMessage :=
  ⟨UInt8.ofNat user.gamePlayerNumber, user.gamePlayerInfo.statusMessage⟩

theorem load_demoStatus {user : UserContext} (h : StatusSized user) :
    PlayerStatusMessage.load (demoStatus user).serialise = .ok (readStatus user) ∧
      (demoStatus user).serialise.length ≤ 200 := by
  have hlen : user.gamePlayerInfo.statusMessage.length ≤ 192 := by
    rcases h with hnil | hfull
    · rw [hnil]
      exact Nat.zero_le _
    · exact hfull.le
  obtain ⟨c, hc, hload, hle⟩ := load_playerStatusMessage (UInt8.ofNat user.gamePlayerNumber)
    (by omega : user.gamePlayerInfo.statusMessage.length + 9 ≤ 2 ^ 32) 0xffffffff
  have hstatus : demoStatus user = ⟨UInt8.ofNat user.gamePlayerNumber, encrypt c⟩ := by
    rw [demoStatus, hc]
    rfl
  rw [hstatus]
  refine ⟨hload, ?_⟩
  show (encrypt c).length + 1 ≤ 200
  omega

/-- All records but the unit data have lengths that the reader takes. -/
theorem readable_or_unitData (hsized : ∀ user ∈ users, StatusSized user) :
    ∀ record ∈ headerRecords game users date, Readable record ∨ record = game.unitData.concat := by
  have hheader : Readable (demoHeader game users.length).serialise := by
    have hname := List.length_take_le 64 game.header.mapName
    have hmagic : tadMagic.length = 8 := rfl
    simp only [Readable, Header.serialise, demoHeader, List.length_append, length_leBytes, hmagic]
    omega
  have hextra : ∀ n, Readable (ExtraHeader.serialise ⟨n⟩) := by
    intro n
    simp [Readable, ExtraHeader.serialise]
  have hversion : Readable versionSector.serialise := by decide +kernel
  have hdate : Readable (dateSector date).serialise := by
    simp [Readable, ExtraSector.serialise, dateSector]
  have haddress : ∀ user, Readable (addressSector user).serialise := by
    intro user
    have hshort := user.ipAddr.short
    simp only [Readable, ExtraSector.serialise, addressSector, List.length_append, length_leBytes,
      List.length_replicate, List.length_map, List.length_singleton]
    omega
  have hplayer : ∀ user, Readable (demoPlayer user).serialise := by
    intro user
    have hname := List.length_take_le 16 user.gamePlayerInfo.name
    simp only [Readable, Player.serialise, demoPlayer, List.length_append, List.length_cons, List.length_nil]
    omega
  have hstatus : ∀ user ∈ users, Readable (demoStatus user).serialise := by
    intro user hmem
    have hle := (load_demoStatus (hsized user hmem)).2
    have hpos : 0 < (demoStatus user).serialise.length := by
      rw [PlayerStatusMessage.serialise, List.length_cons]
      omega
    exact ⟨hpos, by omega⟩
  intro record hmem
  rw [headerRecords] at hmem
  simp only [List.mem_append, List.mem_cons, List.mem_map, List.not_mem_nil, or_false] at hmem
  obtain ((((rfl | rfl | rfl | rfl) | ⟨user, -, rfl⟩) | ⟨user, -, rfl⟩) | ⟨user, hu, rfl⟩) | rfl := hmem
  · exact Or.inl hheader
  · exact Or.inl (hextra _)
  · exact Or.inl hversion
  · exact Or.inl hdate
  · exact Or.inl (haddress user)
  · exact Or.inl (hplayer user)
  · exact Or.inl (hstatus user hu)
  · exact Or.inr rfl

theorem readable_records (hsized : ∀ user ∈ users, StatusSized user) :
    (∀ record ∈ headerRecords game users date, Readable record) ↔
      0 < game.unitData.concat.length ∧ game.unitData.concat.length ≤ 32766 := by
  constructor
  · intro hall
    apply hall
    rw [headerRecords]
    simp [UnitData.serialise]
  · intro hunit record hmem
    rcases readable_or_unitData hsized record hmem with hread | rfl
    · exact hread
    · exact hunit

theorem fits_records (hsized : ∀ user ∈ users, StatusSized user) (hunit : game.unitData.concat.length ≤ 32766) :
    ∀ record ∈ headerRecords game users date, TADemoWriter.Fits record := by
  intro record hmem
  rw [TADemoWriter.Fits]
  rcases readable_or_unitData hsized record hmem with ⟨-, hshort⟩ | rfl
  · omega
  · omega

/-! ### What is read -/

/-- The calls for the players, as they are read. -/
def playerCalls (users : List UserContext) : List Callback :=
  users.zipIdx.map fun u => .player (demoPlayer u.1).readBack u.2 users.length

def statusCalls (users : List UserContext) : List Callback :=
  users.zipIdx.map fun u => .playerStatusMessage (readStatus u.1) (dplayid u.1) u.2 users.length

open DemoParser in
theorem foldlM_headerRecords (hplayers : users.length ≤ 10) (hunits : game.header.maxUnits.toNat ≤ 5000)
    (hname : (readHeader game users).mapName.all isprint = true) :
    ∃ calls : List Callback, (∀ c ∈ calls, ∃ es n m, c = .extraSector es n m) ∧
      (headerRecords game users date).foldlM next .new =
        (users.map (demoStatus · |>.serialise) ++ [UnitData.serialise ⟨game.unitData.concat⟩]).foldlM next
          (stage (readHeader game users) (2 + users.length) (2 + users.length) users.length 0
            ([.header (readHeader game users)] ++ calls ++ playerCalls users)) := by
  have hmod : users.length % 256 = users.length := Nat.mod_eq_of_lt (by omega)
  have hnum : (readHeader game users).numPlayers = users.length := hmod
  have hversion : (readHeader game users).version = 5 := rfl
  have hfirst : next .new (demoHeader game users.length).serialise =
      .ok ⟨.new, some (readHeader game users), none, 0, 0, 0, 0, 0, [.header (readHeader game users)]⟩ := by
    show onHeader .new _ = _
    rw [onHeader, load_demoHeader_of hplayers hunits hname]
    rfl
  have hsecond : next ⟨.new, some (readHeader game users), none, 0, 0, 0, 0, 0,
        [.header (readHeader game users)]⟩ (ExtraHeader.serialise ⟨2 + users.length % 256⟩) =
      .ok (stage (readHeader game users) (2 + users.length) 0 0 0 [.header (readHeader game users)]) := by
    rw [next_extraHeader hversion, onExtraHeader, hmod, load_extraHeader (by omega)]
    rfl
  obtain ⟨written, hwritten⟩ : ∃ written,
      written = versionSector :: dateSector date :: users.map addressSector := ⟨_, rfl⟩
  have hlen : written.length = 2 + users.length := by
    rw [hwritten, List.length_cons, List.length_cons, List.length_map]
    omega
  have htype : ∀ es ∈ written, es.sectorType < 2 ^ 32 := by
    intro es hes
    rw [hwritten] at hes
    simp only [List.mem_cons, List.mem_map] at hes
    obtain rfl | rfl | ⟨user, -, rfl⟩ := hes
    · decide
    · show 4 < 2 ^ 32
      omega
    · show 6 < 2 ^ 32
      omega
  obtain ⟨calls, hcalls, hsectors⟩ : ∃ calls : List Callback, (∀ c ∈ calls, ∃ es n m, c = .extraSector es n m) ∧
      (written.map (·.serialise)).foldlM next
          (stage (readHeader game users) (2 + users.length) 0 0 0 [.header (readHeader game users)]) =
        .ok (stage (readHeader game users) (2 + users.length) (0 + written.length) 0 0
          ([.header (readHeader game users)] ++ calls)) :=
    foldlM_sectors hversion written htype (by omega)
  rw [Nat.zero_add, hlen] at hsectors
  have hsides : ∀ p ∈ users.map demoPlayer, p.side.toInt8.toInt = p.side := by
    intro p hp
    obtain ⟨user, -, rfl⟩ := List.mem_map.mp hp
    show user.gamePlayerInfo.side.toInt.toInt8.toInt = user.gamePlayerInfo.side.toInt
    have hback : user.gamePlayerInfo.side.toInt.toInt8 = user.gamePlayerInfo.side := by simp
    rw [hback]
  have hplayerFold : ((users.map demoPlayer).map (·.serialise)).foldlM next
        (stage (readHeader game users) (2 + users.length) (2 + users.length) 0 0
          ([.header (readHeader game users)] ++ calls)) =
      .ok (stage (readHeader game users) (2 + users.length) (2 + users.length)
        (0 + (users.map demoPlayer).length) 0 ([.header (readHeader game users)] ++ calls ++
          ((users.map demoPlayer).zipIdx 0).map fun p =>
            .player p.1.readBack p.2 (readHeader game users).numPlayers)) :=
    foldlM_players (users.map demoPlayer) hsides (by rw [List.length_map, hnum]; omega)
  have hcallsEq : ((users.map demoPlayer).zipIdx 0).map (fun p =>
      Callback.player p.1.readBack p.2 (readHeader game users).numPlayers) = playerCalls users := by
    rw [List.zipIdx_map, List.map_map, hnum]
    rfl
  rw [Nat.zero_add, List.length_map, hcallsEq] at hplayerFold
  have hrecords : headerRecords game users date = (demoHeader game users.length).serialise ::
      ExtraHeader.serialise ⟨2 + users.length % 256⟩ :: (written.map (·.serialise) ++
        ((users.map demoPlayer).map (·.serialise) ++
          (users.map (demoStatus · |>.serialise) ++ [UnitData.serialise ⟨game.unitData.concat⟩]))) := by
    rw [hwritten, headerRecords]
    simp only [List.map_cons, List.map_map, List.append_assoc, List.cons_append, List.nil_append]
    rfl
  refine ⟨calls, hcalls, ?_⟩
  rw [hrecords, List.foldlM_cons, hfirst]
  show List.foldlM next _ _ = _
  rw [List.foldlM_cons, hsecond]
  show List.foldlM next _ _ = _
  rw [List.foldlM_append, hsectors]
  show List.foldlM next _ _ = _
  rw [List.foldlM_append, hplayerFold]
  rfl

open DemoParser in
theorem foldlM_statusCalls (hsized : ∀ user ∈ users, user.gamePlayerInfo.statusMessage.length = 192)
    (hnum : (readHeader game users).numPlayers = users.length) (sectors : ℕ) (handled : List Callback) :
    ∃ s, (users.map (demoStatus · |>.serialise) ++ [UnitData.serialise ⟨game.unitData.concat⟩]).foldlM next
        (stage (readHeader game users) sectors sectors users.length 0 handled) = .ok s ∧
      s.handled = handled ++ statusCalls users ++ [.unitData ⟨game.unitData.concat⟩] := by
  have hload : ∀ user ∈ users, PlayerStatusMessage.load (demoStatus user).serialise = .ok (readStatus user) :=
    fun user hu => (load_demoStatus (Or.inr (hsized user hu))).1
  have hid : ∀ user ∈ users, uint32At (readStatus user).statusMessage 0x91 = .ok (dplayid user) :=
    fun user hu => uint32At_status (hsized user hu)
  have hfold : (users.map (demoStatus · |>.serialise)).foldlM next
        (stage (readHeader game users) sectors sectors users.length 0 handled) =
      .ok (stage (readHeader game users) sectors sectors users.length users.length
        (handled ++ statusCalls users)) := by
    have h := @foldlM_statuses (readHeader game users) sectors 0 handled UserContext users
      (demoStatus · |>.serialise) readStatus dplayid hload hid (by omega)
    rw [hnum, Nat.zero_add] at h
    exact h
  have hunit : next (stage (readHeader game users) sectors sectors users.length users.length
        (handled ++ statusCalls users)) (UnitData.serialise ⟨game.unitData.concat⟩) =
      DemoParser.onUnitData (stage (readHeader game users) sectors sectors users.length users.length
        (handled ++ statusCalls users)) (UnitData.serialise ⟨game.unitData.concat⟩) := by
    have h := @next_unitData (readHeader game users) sectors (handled ++ statusCalls users)
      (UnitData.serialise ⟨game.unitData.concat⟩)
    rw [hnum] at h
    exact h
  rw [List.foldlM_append, hfold]
  show ∃ s, List.foldlM next _ _ = _ ∧ _
  rw [List.foldlM_cons, hunit]
  exact ⟨_, rfl, rfl⟩

open DemoParser in
theorem foldlM_next_handled {records : List Bytes} {s s' : DemoParser} (h : records.foldlM next s = .ok s') :
    ∃ cs, s'.handled = s.handled ++ cs := by
  induction records generalizing s with
  | nil =>
    obtain rfl := Except.ok.inj h
    exact ⟨[], (List.append_nil _).symm⟩
  | cons record records ih =>
    rw [List.foldlM_cons] at h
    cases hnext : next s record with
    | error e =>
      rw [hnext] at h
      cases h
    | ok s1 =>
      rw [hnext] at h
      obtain ⟨-, cs1, hcs1, -⟩ := next_ok hnext
      obtain ⟨cs, hcs⟩ := ih h
      exact ⟨cs1 ++ cs, by rw [hcs, hcs1, List.append_assoc]⟩

theorem filter_calls {calls : List Callback} (hcalls : ∀ c ∈ calls, ∃ es n m, c = Callback.extraSector es n m) :
    ([Callback.header (readHeader game users)] ++ calls ++ playerCalls users ++ statusCalls users ++
        [Callback.unitData ⟨game.unitData.concat⟩]).filter (!·.isExtraSector) =
      [Callback.header (readHeader game users)] ++ playerCalls users ++ statusCalls users ++
        [Callback.unitData ⟨game.unitData.concat⟩] := by
  have hsectors : calls.filter (!·.isExtraSector) = [] := by
    rw [List.filter_eq_nil_iff]
    intro c hc
    obtain ⟨es, n, m, rfl⟩ := hcalls c hc
    simp [Callback.isExtraSector]
  have hplayers : (playerCalls users).filter (!·.isExtraSector) = playerCalls users := by
    rw [List.filter_eq_self]
    intro c hc
    obtain ⟨u, -, rfl⟩ := List.mem_map.mp hc
    rfl
  have hstatuses : (statusCalls users).filter (!·.isExtraSector) = statusCalls users := by
    rw [List.filter_eq_self]
    intro c hc
    obtain ⟨u, -, rfl⟩ := List.mem_map.mp hc
    rfl
  rw [List.filter_append, List.filter_append, List.filter_append, List.filter_append, hsectors, hplayers,
    hstatuses, List.append_nil]
  rfl

theorem not_zero_of_isprint {bs : Bytes} (h : bs.all isprint = true) : 0 ∉ bs := by
  intro hmem
  have hzero := List.all_eq_true.mp h 0 hmem
  revert hzero
  decide

theorem map_zipIdx_eq {α β : Type} {f g : α × ℕ → β} {xs : List α} (h : xs.zipIdx.map f = xs.zipIdx.map g) :
    ∀ x ∈ xs, ∃ i, f (x, i) = g (x, i) := by
  intro x hx
  obtain ⟨i, hi, hat⟩ := List.getElem_of_mem hx
  have hmem : (x, i) ∈ xs.zipIdx := by
    rw [List.mem_iff_getElem]
    exact ⟨i, by rwa [List.length_zipIdx], by rw [List.getElem_zipIdx, hat, Nat.zero_add]⟩
  exact ⟨i, List.map_inj_left.mp h _ hmem⟩

theorem isPacket_writtenValues : ∀ c ∈ writtenValues game users, DemoParser.Callback.isPacket c = false := by
  intro c hc
  simp only [writtenValues, List.mem_append, List.mem_map, List.mem_singleton] at hc
  obtain ((rfl | ⟨u, -, rfl⟩) | ⟨u, -, rfl⟩) | rfl := hc
  all_goals rfl

/-- What is handed over for headers that the parser leaves as they are. -/
theorem calls_eq (hplayers : users.length ≤ 10) (hname : (game.header.mapName.take 64).all isprint = true)
    (hnames : ∀ user ∈ users, 0 ∉ user.gamePlayerInfo.name.take 16) :
    [Callback.header (readHeader game users)] ++ playerCalls users ++ statusCalls users ++
      [Callback.unitData ⟨game.unitData.concat⟩] = writtenValues game users := by
  have hheader : readHeader game users =
      ⟨tadMagic, 5, users.length, game.header.maxUnits.toNat, game.header.mapName.take 64⟩ := by
    rw [readHeader, Header.readBack, demoHeader, cString_eq_self.mpr (not_zero_of_isprint hname),
      Nat.mod_eq_of_lt (by omega)]
  have hcalls : playerCalls users = users.zipIdx.map fun u =>
      .player { demoPlayer u.1 with name := u.1.gamePlayerInfo.name.take 16 } u.2 users.length := by
    apply List.map_congr_left
    intro u hu
    have hmem : u.1 ∈ users := List.fst_mem_of_mem_zipIdx hu
    show Callback.player (demoPlayer u.1).readBack u.2 users.length = _
    rw [Player.readBack]
    show Callback.player { demoPlayer u.1 with name := cString (u.1.gamePlayerInfo.name.take 16) } _ _ = _
    rw [cString_eq_self.mpr (hnames u.1 hmem)]
  rw [hheader, hcalls]
  rfl

open DemoParser in
/-- The first record decides whether the parser and the compiler agree on the header. -/
theorem header_of_read {s : DemoParser} (hread : (headerRecords game users date).foldlM next .new = .ok s)
    (hvalues : s.handled.filter (!·.isExtraSector) = writtenValues game users) :
    users.length ≤ 10 ∧ game.header.maxUnits.toNat ≤ 5000 ∧
      (game.header.mapName.take 64).all isprint = true := by
  obtain ⟨rest, hrecords⟩ : ∃ rest, headerRecords game users date =
      (demoHeader game users.length).serialise :: rest := ⟨_, rfl⟩
  rw [hrecords, List.foldlM_cons] at hread
  cases hload : Header.load (demoHeader game users.length).serialise with
  | error e =>
    have hfirst : next .new (demoHeader game users.length).serialise = .error e := by
      show onHeader .new _ = _
      rw [onHeader, hload]
      rfl
    rw [hfirst] at hread
    cases hread
  | ok h =>
    obtain ⟨rfl, hten, hunits, hprint⟩ := load_demoHeader hload
    have hfirst : next .new (demoHeader game users.length).serialise =
        .ok ⟨.new, some (readHeader game users), none, 0, 0, 0, 0, 0, [.header (readHeader game users)]⟩ := by
      show onHeader .new _ = _
      rw [onHeader, hload]
      rfl
    rw [hfirst] at hread
    obtain ⟨cs, hcs⟩ := foldlM_next_handled hread
    rw [hcs] at hvalues
    have hhead : readHeader game users =
        ⟨tadMagic, 5, users.length, game.header.maxUnits.toNat, game.header.mapName.take 64⟩ :=
      Callback.header.inj (List.cons.inj hvalues).1
    have hplayers : users.length % 256 = users.length := congrArg Header.numPlayers hhead
    have hname : (readHeader game users).mapName = game.header.mapName.take 64 := congrArg Header.mapName hhead
    rw [hname] at hprint
    exact ⟨by omega, hunits, hprint⟩

/-- A player without a status message ends the reading. -/
theorem statuses_of_read (hsized : ∀ user ∈ users, StatusSized user)
    (hnum : (readHeader game users).numPlayers = users.length) {sectors : ℕ} {handled : List Callback}
    {rest : List Bytes} {s : DemoParser}
    (hread : (users.map (demoStatus · |>.serialise) ++ rest).foldlM DemoParser.next
      (DemoParser.stage (readHeader game users) sectors sectors users.length 0 handled) = .ok s) :
    ∀ user ∈ users, user.gamePlayerInfo.statusMessage.length = 192 := by
  have hload : ∀ user ∈ users, PlayerStatusMessage.load (demoStatus user).serialise = .ok (readStatus user) :=
    fun user hu => (load_demoStatus (hsized user hu)).1
  have hread' : (users.map (demoStatus · |>.serialise) ++ rest).foldlM DemoParser.next
      (DemoParser.stage (readHeader game users) sectors sectors (readHeader game users).numPlayers 0 handled) =
        .ok s := by
    rw [hnum]
    exact hread
  intro user hu
  obtain ⟨id, hid⟩ := DemoParser.foldlM_statuses_error users (demoStatus · |>.serialise) readStatus hload rest
    (by omega) hread' user hu
  rcases hsized user hu with hnil | hfull
  · rw [readStatus, hnil] at hid
    cases hid
  · exact hfull

/-- The limits of the writer are those of the reader on legible headers only. -/
theorem readBack_headerRecords_iff (hsized : ∀ user ∈ users, StatusSized user)
    (hfits : ∀ record ∈ headerRecords game users date, TADemoWriter.Fits record) :
    ReadBack ((headerRecords game users date).flatMap TADemoWriter.frame) (writtenValues game users) ↔
      Legible game users := by
  rw [readBack_frames_iff hfits isPacket_writtenValues, readable_records hsized]
  constructor
  · intro h
    obtain ⟨hunit, s, hread, hvalues⟩ := h
    obtain ⟨hplayers, hunits, hname⟩ := header_of_read hread hvalues
    have hmap : (readHeader game users).mapName.all isprint = true := by
      show (cString (game.header.mapName.take 64)).all isprint = true
      rwa [cString_eq_self.mpr (not_zero_of_isprint hname)]
    have hnum : (readHeader game users).numPlayers = users.length := Nat.mod_eq_of_lt (by omega)
    obtain ⟨calls, hcalls, hstage⟩ := @foldlM_headerRecords game users date hplayers hunits hmap
    rw [hstage] at hread
    have hstatuses := statuses_of_read hsized hnum hread
    obtain ⟨s', hs', hhandled⟩ := foldlM_statusCalls hstatuses hnum (2 + users.length)
      ([.header (readHeader game users)] ++ calls ++ playerCalls users)
    rw [hs'] at hread
    obtain rfl := Except.ok.inj hread
    rw [hhandled, filter_calls hcalls] at hvalues
    refine ⟨hplayers, hunits, hname, ?_, ?_, hunit⟩
    · have hlen : ([Callback.header (readHeader game users)] ++ playerCalls users).length =
          ([Callback.header ⟨tadMagic, 5, users.length, game.header.maxUnits.toNat,
            game.header.mapName.take 64⟩] ++ users.zipIdx.map fun u => Callback.player
              { demoPlayer u.1 with name := u.1.gamePlayerInfo.name.take 16 } u.2 users.length).length := by
        simp [playerCalls]
      have hfront := (List.append_inj hvalues (by simp [playerCalls, statusCalls])).1
      have hplayerCalls := (List.append_inj (List.append_inj hfront hlen).1 rfl).2
      intro user hu
      obtain ⟨i, hi⟩ := map_zipIdx_eq hplayerCalls user hu
      have hback := congrArg Player.name (Callback.player.inj hi).1
      exact cString_eq_self.mp hback
    · intro user hu hnil
      have hfull := hstatuses user hu
      rw [hnil] at hfull
      cases hfull
  · intro h
    obtain ⟨hplayers, hunits, hname, hnames, hstatuses, hunit⟩ := h
    have hmap : (readHeader game users).mapName.all isprint = true := by
      show (cString (game.header.mapName.take 64)).all isprint = true
      rwa [cString_eq_self.mpr (not_zero_of_isprint hname)]
    have hnum : (readHeader game users).numPlayers = users.length := Nat.mod_eq_of_lt (by omega)
    obtain ⟨calls, hcalls, hstage⟩ := @foldlM_headerRecords game users date hplayers hunits hmap
    have hfull : ∀ user ∈ users, user.gamePlayerInfo.statusMessage.length = 192 :=
      fun user hu => (hsized user hu).resolve_left (hstatuses user hu)
    obtain ⟨s, hs, hhandled⟩ := foldlM_statusCalls hfull hnum (2 + users.length)
      ([.header (readHeader game users)] ++ calls ++ playerCalls users)
    refine ⟨hunit, s, hstage.trans hs, ?_⟩
    rw [hhandled, filter_calls hcalls]
    exact calls_eq hplayers hname hnames

end records

/-! ### Every run -/

/-- Clients send status messages of the full size. -/
def statusSized (_ : TaDemoCompiler) : Event → Prop
  | .readyRead _ (.gamePlayer msg) _ => msg.statusMessage.length = 192
  | _ => True

instance (s : TaDemoCompiler) (e : Event) : Decidable (statusSized s e) := by
  unfold statusSized
  split
  all_goals infer_instance

variable {s : TaDemoCompiler}

theorem statusSized_numbered {game : GameContext} {lockedIn : List ℕ} (hs : ∀ c, StatusSized (s.contexts c)) :
    ∀ c, StatusSized (s.numbered game lockedIn c) := by
  intro c
  rw [StatusSized, gamePlayerInfo_numbered]
  exact hs c

theorem statusSized_step {e : Event} (hs : ∀ c, StatusSized (s.contexts c)) (he : statusSized s e) :
    ∀ c, StatusSized ((s.step e).contexts c) := by
  intro c
  -- the statuses that are kept are the ones that were sent
  let w : Told := ⟨s, fun c => some (s.statusOf c)⟩
  have hkept : (s.step e).statusOf = fun c => (w.hears e c).getD [] := Told.kept_next (w := w) rfl e
  show (s.step e).statusOf c = [] ∨ ((s.step e).statusOf c).length = 192
  rw [hkept]
  refine Told.hears_forall (w := w) (P := fun status => status.getD [] = [] ∨ (status.getD []).length = 192) hs
    (Or.inl rfl) ?_ c
  intro socket msg clock hevent
  subst hevent
  exact Or.inr he

theorem statusSized_of_runs {t : PathTemplate} {n : ℕ}
    (h : Runs (fun s e => some (s.step e)) statusSized (.new t n) s) : ∀ c, StatusSized (s.contexts c) := by
  have hnew : ∀ c, StatusSized ((new t n).contexts c) := fun _ => Or.inl rfl
  apply Runs.invariant (P := fun s => ∀ c, StatusSized (s.contexts c)) h hnew
  intro s e s' hs he hx
  cases hx
  exact statusSized_step hs he

/-! ### What is committed -/

section commit

variable {game : GameContext} {lockedIn : List ℕ} {date : Vector Byte 10} {contexts : ℕ → UserContext}
  {output : Bytes}

theorem commitHeaders_some (hcommit : commitHeaders (s.lockIn game lockedIn) s.contexts date =
      (contexts, .ok (some output))) :
    Registered game lockedIn ∧ contexts = s.numbered game lockedIn ∧
      (∀ record ∈ s.recordsOf game lockedIn date, TADemoWriter.Fits record) ∧
      output = (s.recordsOf game lockedIn date).flatMap TADemoWriter.frame := by
  by_cases hreg : Registered game lockedIn
  · rw [commitHeaders_registered hreg] at hcommit
    by_cases hfits : ∀ record ∈ s.recordsOf game lockedIn date, TADemoWriter.Fits record
    · rw [TADemoWriter.writeRecords_ok [] hfits] at hcommit
      cases hcommit
      exact ⟨hreg, rfl, hfits, rfl⟩
    · rw [TADemoWriter.writeRecords_error [] hfits] at hcommit
      cases hcommit
  · rw [commitHeaders_unknown hreg] at hcommit
    cases hcommit

theorem legible_iff (users : List UserContext) : Legible game users ↔
    (users.map (·.gamePlayerInfo)).length ≤ 10 ∧ game.header.maxUnits.toNat ≤ 5000 ∧
      (game.header.mapName.take 64).all isprint = true ∧
      (∀ info ∈ users.map (·.gamePlayerInfo), 0 ∉ info.name.take 16 ∧ info.statusMessage ≠ []) ∧
      (0 < game.unitData.concat.length ∧ game.unitData.concat.length ≤ 32766) := by
  rw [List.length_map, List.forall_mem_map]
  constructor
  · intro h
    obtain ⟨h1, h2, h3, h4, h5, h6⟩ := h
    exact ⟨h1, h2, h3, fun user hu => ⟨h4 user hu, h5 user hu⟩, h6⟩
  · intro h
    obtain ⟨h1, h2, h3, h45, h6⟩ := h
    exact ⟨h1, h2, h3, fun user hu => (h45 user hu).1, fun user hu => (h45 user hu).2, h6⟩

instance (users : List UserContext) : Decidable (Legible game users) := decidable_of_iff' _ (legible_iff users)

theorem legible_numbered :
    Legible game (usersOf game (s.numbered game lockedIn) lockedIn) ↔
      Legible game (usersOf game s.contexts lockedIn) := by
  have hinfos : (usersOf game (s.numbered game lockedIn) lockedIn).map (·.gamePlayerInfo) =
      (usersOf game s.contexts lockedIn).map (·.gamePlayerInfo) := by
    rw [usersOf, usersOf, List.map_filterMap, List.map_filterMap]
    congr 1
    funext dpid
    cases game.players[dpid]? with
    | none => rfl
    | some socket =>
      obtain ⟨number, hnumber⟩ := assignNumbers_same game.players lockedIn 0 s.contexts socket
      show some (s.numbered game lockedIn socket).gamePlayerInfo = _
      rw [numbered, hnumber]
      rfl
  rw [legible_iff, legible_iff, hinfos]

theorem statusSized_usersOf (hs : ∀ c, StatusSized (s.contexts c)) :
    ∀ user ∈ usersOf game (s.numbered game lockedIn) lockedIn, StatusSized user := by
  intro user hu
  obtain ⟨dpid, -, hdpid⟩ := List.mem_filterMap.mp hu
  obtain ⟨socket, -, rfl⟩ := Option.map_eq_some_iff.mp hdpid
  exact statusSized_numbered hs socket

/-- Registered players are enough for a commit that is not too long. -/
theorem exists_commit (hs : ∀ c, StatusSized (s.contexts c)) (hreg : Registered game lockedIn)
    (hunit : game.unitData.concat.length ≤ 32766) : ∃ contexts output,
      commitHeaders (s.lockIn game lockedIn) s.contexts date = (contexts, .ok (some output)) := by
  have hsized := @statusSized_usersOf s game lockedIn hs
  have hfits : ∀ record ∈ s.recordsOf game lockedIn date, TADemoWriter.Fits record :=
    @fits_records (s.lockIn game lockedIn) _ date hsized hunit
  rw [commitHeaders_registered hreg, TADemoWriter.writeRecords_ok [] hfits]
  exact ⟨_, _, rfl⟩

theorem commit_readBack_iff (hs : ∀ c, StatusSized (s.contexts c))
    (hcommit : commitHeaders (s.lockIn game lockedIn) s.contexts date = (contexts, .ok (some output))) :
    ReadBack output (writtenValues game (usersOf game contexts lockedIn)) ↔
      Legible game (usersOf game s.contexts lockedIn) := by
  obtain ⟨-, rfl, hfits, rfl⟩ := commitHeaders_some hcommit
  rw [← legible_numbered]
  have hiff := @readBack_headerRecords_iff (s.lockIn game lockedIn) _ date (statusSized_usersOf hs) hfits
  have hsame : Legible (s.lockIn game lockedIn) (usersOf game (s.numbered game lockedIn) lockedIn) ↔
      Legible game (usersOf game (s.numbered game lockedIn) lockedIn) :=
    ⟨fun ⟨h1, h2, h3, h4, h5, h6⟩ => ⟨h1, h2, h3, h4, h5, h6⟩,
      fun ⟨h1, h2, h3, h4, h5, h6⟩ => ⟨h1, h2, h3, h4, h5, h6⟩⟩
  exact hiff.trans hsame

/-- What a commit writes is read back if and only if it is within the limits of the parser:
at most ten players and 5000 units, a printable map name, names without a zero byte, a
status message of every player, and some unit data, but not more than fits into a record. -/
theorem demo_read_back_iff {t : PathTemplate} {n : ℕ}
    (h : Runs (fun s e => some (s.step e)) statusSized (.new t n) s)
    (hcommit : commitHeaders (s.lockIn game lockedIn) s.contexts date = (contexts, .ok (some output))) :
    ReadBack output (writtenValues game (usersOf game contexts lockedIn)) ↔
      Legible game (usersOf game s.contexts lockedIn) :=
  commit_readBack_iff (statusSized_of_runs h) hcommit

/-- A player that sends all it has to before it loads. -/
def legible : List Event :=
  [.newConnection localhost, .readyRead 0 (.hello 7 1 []) noon, .readyRead 0 (.gameInfo {}) noon,
    .readyRead 0 (.gamePlayer armPlayer) noon,
    .readyRead 0 (.unitData ([0x1a, 2] ++ List.replicate 12 0)) noon]

theorem demo_read_back_legible : ∃ s game contexts output,
    Runs (fun s e => some (s.step e)) statusSized (.new ⟨"taf-game-", ".tad"⟩ 0) s ∧
      s.games[7]? = some game ∧
      commitHeaders (s.lockIn game [1]) s.contexts noon.date = (contexts, .ok (some output)) ∧
      ReadBack output (writtenValues game (usersOf game contexts [1])) := by
  have hrun : (run (guarded (fun s e => some (s.step e)) statusSized) (.new ⟨"taf-game-", ".tad"⟩ 0) legible).bind
      (fun s => s.games[7]?.map fun game =>
        decide (Registered game [1] ∧ Legible game (usersOf game s.contexts [1]))) = some true := by
    decide +kernel
  obtain ⟨s, hs, hview⟩ := Option.bind_eq_some_iff.mp hrun
  obtain ⟨game, hgame, hdecide⟩ := Option.map_eq_some_iff.mp hview
  obtain ⟨hreg, hlegible⟩ := of_decide_eq_true hdecide
  have hruns := Runs.of_run_guarded legible hs
  obtain ⟨contexts, output, hcommit⟩ := @exists_commit s game [1] noon.date (statusSized_of_runs hruns) hreg
    hlegible.unitData.2
  exact ⟨s, game, contexts, output, hruns, hgame, hcommit, (demo_read_back_iff hruns hcommit).mpr hlegible⟩

/-- A demo whose unit data is an empty record. -/
theorem empty_unit_data_not_read : ∃ s game contexts output,
    Runs (fun s e => some (s.step e)) statusSized (.new ⟨"taf-game-", ".tad"⟩ 0) s ∧
      s.games[7]? = some game ∧
      commitHeaders (s.lockIn game [1]) s.contexts noon.date = (contexts, .ok (some output)) ∧
      ¬ ReadBack output (writtenValues game (usersOf game contexts [1])) := by
  -- the same messages but the unit data
  have hrun : (run (guarded (fun s e => some (s.step e)) statusSized) (.new ⟨"taf-game-", ".tad"⟩ 0)
        (legible.take 4)).bind (fun s => s.games[7]?.map fun game =>
          decide (Registered game [1] ∧ game.unitData.concat = [])) = some true := by
    decide +kernel
  obtain ⟨s, hs, hview⟩ := Option.bind_eq_some_iff.mp hrun
  obtain ⟨game, hgame, hdecide⟩ := Option.map_eq_some_iff.mp hview
  obtain ⟨hreg, hunit⟩ := of_decide_eq_true hdecide
  have hruns := Runs.of_run_guarded (legible.take 4) hs
  have hsized := statusSized_of_runs hruns
  obtain ⟨contexts, output, hcommit⟩ := @exists_commit s game [1] noon.date hsized hreg (by rw [hunit]; simp)
  refine ⟨s, game, contexts, output, hruns, hgame, hcommit, ?_⟩
  rw [commit_readBack_iff hsized hcommit]
  intro hlegible
  have hpos := hlegible.unitData.1
  rw [hunit] at hpos
  cases hpos

end commit

end Gpgnet4TA.Tareplay.TaDemoCompiler
