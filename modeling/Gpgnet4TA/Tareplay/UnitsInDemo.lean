import Gpgnet4TA.Tapacket.DemoRoundTrip
import Gpgnet4TA.Tareplay.UnitData

/-!
# The units of a game in its demo file

`commitHeaders` writes the values of a repository into one record, `DemoInfoParser` cuts the
record into pieces of the length of the first one. The record reader takes no record of more
than 32766 bytes, which are 2340 values, where the writer takes twice as many.
-/

namespace Gpgnet4TA.Tareplay.TaDemoCompiler.UnitDataRepo
open Gpgnet4TA.Lib Gpgnet4TA.Tapacket

/-! ### The pieces (`replayer.cpp:106-116`) -/

/-- The loop cuts off `subpakLen` bytes at a time; a piece that leaves the data has no value. -/
def handleLoop (subpakLen : ℕ) : ℕ → Bytes → UnitDataRepo → Option UnitDataRepo
  | 0, _, units => some units
  | fuel + 1, ptr, units =>
    if ptr ≠ [] ∧ 0 < subpakLen then do
      let bs ← sliceAt (ptr ++ [0]) 0 subpakLen
      handleLoop subpakLen fuel (ptr.drop subpakLen) (units.add bs)
    else some units

/-- `DemoInfoParser::handle(UnitData)`: only the first subpacket is measured. -/
def handleUnitData (units : UnitDataRepo) (unitData : Bytes) : Option UnitDataRepo := do
  let subpakLen ← getExpectedSubPacketSizeN (unitData ++ [0]) (unsigned unitData.length)
  handleLoop subpakLen unitData.length unitData units

theorem handleLoop_pieces {pieces : List Bytes} (hlen : ∀ piece ∈ pieces, piece.length = 14) {fuel : ℕ}
    (hfuel : pieces.length ≤ fuel) (units : UnitDataRepo) :
    handleLoop 14 fuel pieces.flatten units = some (pieces.foldl add units) := by
  induction pieces generalizing fuel units with
  | nil =>
    cases fuel with
    | zero => rfl
    | succ fuel => exact if_neg fun h => h.1 rfl
  | cons piece pieces ih =>
    obtain ⟨fuel, rfl⟩ : ∃ n, fuel = n + 1 := ⟨fuel - 1, by rw [List.length_cons] at hfuel; omega⟩
    have hpiece : piece.length = 14 := hlen piece List.mem_cons_self
    have hne : piece ++ pieces.flatten ≠ [] := by
      intro hnil
      rw [(List.append_eq_nil_iff.mp hnil).1] at hpiece
      cases hpiece
    have hslice : sliceAt (piece ++ pieces.flatten ++ [0]) 0 14 = some piece := by
      rw [List.append_assoc, ← hpiece]
      exact sliceAt_append [] piece _
    rw [List.flatten_cons, handleLoop, if_pos ⟨hne, by omega⟩, hslice, List.drop_left' hpiece]
    exact ih (fun t ht => hlen t (List.mem_cons_of_mem _ ht)) (by rw [List.length_cons] at hfuel; omega) _

theorem foldl_add_entries {entries : List (ℕ × Bytes)} (hkept : ∀ e ∈ entries, IsKept e.2 ∧ key e.2 = e.1)
    (hnodup : (entries.map (·.1)).Nodup) {repo : UnitDataRepo} (hnew : ∀ e ∈ entries, repo[e.1]? = none) (k : ℕ)
    (pd : Bytes) :
    ((entries.map (·.2)).foldl add repo)[k]? = some pd ↔ (k, pd) ∈ entries ∨ repo[k]? = some pd := by
  induction entries generalizing repo with
  | nil => simp
  | cons e entries ih =>
    rw [List.map_cons, List.nodup_cons] at hnodup
    obtain ⟨hkeep, hkey⟩ := hkept e List.mem_cons_self
    have hadd : ∀ k : ℕ, (repo.add e.2)[k]? = if k = e.1 then some e.2 else repo[k]? := by
      intro k
      rw [getElem?_add_kept hkeep, hkey, hnew e List.mem_cons_self]
      rfl
    have hnew' : ∀ e' ∈ entries, (repo.add e.2)[e'.1]? = none := by
      intro e' he'
      have hne : e'.1 ≠ e.1 := fun h => hnodup.1 (h ▸ List.mem_map_of_mem he')
      rw [hadd, if_neg hne]
      exact hnew e' (List.mem_cons_of_mem _ he')
    rw [List.map_cons, List.foldl_cons, ih (fun t ht => hkept t (List.mem_cons_of_mem _ ht)) hnodup.2 hnew',
      hadd, List.mem_cons]
    by_cases hk : k = e.1
    · have hold := hnew e List.mem_cons_self
      rw [← hk] at hold
      rw [if_pos hk, hold, Prod.ext_iff]
      simp [hk, or_comm, eq_comm]
    · rw [if_neg hk, Prod.ext_iff]
      simp [hk]

/-- Adding the values of a repository to an empty one gives it back. -/
theorem addAll_values {repo : UnitDataRepo} (h : WellFormed repo) : addAll (repo.toList.map (·.2)) = repo := by
  have hnodup : (repo.toList.map (·.1)).Nodup := by
    rw [List.Nodup, List.pairwise_map]
    exact repo.toList_pairwise.imp fun hlt => hlt.ne
  apply Std.ExtTreeMap.ext_getElem?
  intro k
  apply Option.ext
  intro pd
  have hempty : ∀ e ∈ repo.toList, (∅ : UnitDataRepo)[e.1]? = none := fun e _ => by simp
  have hfold := foldl_add_entries (fun e he => h e.1 e.2 (Table.mem_toList.mp he)) hnodup hempty k pd
  rw [addAll, hfold, Table.mem_toList]
  simp

theorem length_concat {repo : UnitDataRepo} (h : WellFormed repo) : repo.concat.length = 14 * repo.size := by
  have hentries : ∀ entries : List (ℕ × Bytes), (∀ e ∈ entries, e.2.length = 14) →
      (entries.flatMap (·.2)).length = 14 * entries.length := by
    intro entries hlen
    induction entries with
    | nil => rfl
    | cons e entries ih =>
      rw [List.flatMap_cons, List.length_append, hlen e List.mem_cons_self,
        ih fun t ht => hlen t (List.mem_cons_of_mem _ ht), List.length_cons]
      omega
  rw [concat, hentries _ fun e he => (h e.1 e.2 (Table.mem_toList.mp he)).1.1.2,
    Std.ExtTreeMap.length_toList]

/-- Data that is short enough for an `unsigned` is cut into what it was made of. -/
theorem handleUnitData_concat {repo : UnitDataRepo} (h : WellFormed repo) (hne : repo.size ≠ 0)
    (hshort : repo.concat.length < 2 ^ 32) : handleUnitData ∅ repo.concat = some repo := by
  have hlen := length_concat h
  have hpieces : ∀ piece ∈ repo.toList.map (·.2), piece.length = 14 := by
    intro piece hpiece
    obtain ⟨e, he, rfl⟩ := List.mem_map.mp hpiece
    exact (h e.1 e.2 (Table.mem_toList.mp he)).1.1.2
  have hflatten : repo.concat = (repo.toList.map (·.2)).flatten := by rw [concat, List.flatMap_def]
  have hhead : repo.concat.head? = some SubPacketCode.UNIT_DATA_1A := by
    rw [concat]
    cases hentries : repo.toList with
    | nil =>
      rw [← Std.ExtTreeMap.length_toList, hentries] at hne
      exact absurd rfl hne
    | cons e entries =>
      have hmem : (e.1, e.2) ∈ repo.toList := hentries ▸ List.mem_cons_self
      have hfirst := (h e.1 e.2 (Table.mem_toList.mp hmem)).1.1.1
      rw [List.flatMap_cons, List.head?_append, hfirst]
      rfl
  have hsize := getExpectedSubPacketSize_unitData hhead
  rw [getExpectedSubPacketSize] at hsize
  have hpos : unsigned repo.concat.length ≠ 0 := by
    rw [unsigned, Nat.mod_eq_of_lt hshort, hlen]
    omega
  rw [handleUnitData, hsize, Option.bind_eq_bind, Option.bind_some, if_neg hpos, hflatten,
    handleLoop_pieces hpieces (by rw [← hflatten, hlen, List.length_map, Std.ExtTreeMap.length_toList]; omega)]
  exact congrArg some (addAll_values h)

/-! ### Through a demo file -/

def handleCallback (units : UnitDataRepo) : Callback → Option UnitDataRepo
  | .unitData unitData => handleUnitData units unitData.unitData
  | _ => some units

/-- What `DemoInfoParser` has of the units after their record: `commitHeaders` writes the
repository, the record is the next one of the parser `s`, and `rest` comes behind it. -/
def demoUnits (repo : UnitDataRepo) (s : DemoParser) (rest : Bytes) : Option UnitDataRepo :=
  match TADemoWriter.writeRecord [] (UnitData.serialise ⟨repo.concat⟩) with
  | .error _ => none
  | .ok output =>
    match DemoParser.load DemoParser.onUnitData s (output ++ rest) with
    | (.ok (), s', _) => (s'.handled.drop s.handled.length).foldlM handleCallback ∅
    | (.error _, _, _) => none

theorem demoUnits_unfit {repo : UnitDataRepo} (h : ¬ TADemoWriter.Fits repo.concat) (s : DemoParser) (rest : Bytes) :
    demoUnits repo s rest = none := by
  have hwrite : TADemoWriter.writeRecord [] (UnitData.serialise ⟨repo.concat⟩) =
      .error (.runtimeError "Oversize record!") := if_neg h
  rw [demoUnits, hwrite]

theorem demoUnits_unreadable {repo : UnitDataRepo} (hfits : TADemoWriter.Fits repo.concat)
    (hread : ¬ Readable repo.concat) {s : DemoParser} (hs : s.recordReader.state = .READ_RECLEN1) (rest : Bytes) :
    demoUnits repo s rest = none := by
  have hwrite : TADemoWriter.writeRecord [] (UnitData.serialise ⟨repo.concat⟩) =
      .ok ([] ++ TADemoWriter.frame repo.concat) := if_pos hfits
  obtain ⟨e, r', is', hfail⟩ := RecordReader.read_unreadable hs hfits hread rest
  have hload : DemoParser.load DemoParser.onUnitData s (TADemoWriter.frame repo.concat ++ rest) =
      (.error (.failed e), { s with recordReader := r' }, is') := by
    rw [DemoParser.load_eq, hfail]
    rfl
  rw [demoUnits, hwrite]
  dsimp only
  rw [List.nil_append, hload]

theorem demoUnits_readable {repo : UnitDataRepo} (hfits : TADemoWriter.Fits repo.concat)
    (hread : Readable repo.concat) {s : DemoParser} (hs : s.recordReader.state = .READ_RECLEN1) (rest : Bytes) :
    demoUnits repo s rest = handleUnitData ∅ repo.concat := by
  have hwrite : TADemoWriter.writeRecord [] (UnitData.serialise ⟨repo.concat⟩) =
      .ok ([] ++ TADemoWriter.frame repo.concat) := if_pos hfits
  obtain ⟨r', -, hok⟩ := RecordReader.read_frame hs hfits hread rest
  obtain ⟨s', hs'⟩ : ∃ s', s' = { ({ s with recordReader := r' } : DemoParser).handle
      (.unitData ⟨repo.concat⟩) with numUnitDataRead := s.numUnitDataRead + 1 } := ⟨_, rfl⟩
  have hload : DemoParser.load DemoParser.onUnitData s (TADemoWriter.frame repo.concat ++ rest) =
      (.ok (), s', rest) := by
    rw [DemoParser.load_eq, hok, hs']
    rfl
  have hhandled : s'.handled = s.handled ++ [.unitData ⟨repo.concat⟩] := by
    rw [hs']
    rfl
  rw [demoUnits, hwrite]
  dsimp only
  rw [List.nil_append, hload]
  dsimp only
  rw [hhandled, List.drop_left, List.foldlM_cons]
  show (handleUnitData ∅ repo.concat).bind _ = _
  cases handleUnitData ∅ repo.concat with
  | none => rfl
  | some units => rfl

/-- The pieces of the concatenation make the same repository, and the same is read back from
wherever in a demo it was written to, so that the hashes agree. -/
structure Survives (repo : UnitDataRepo) : Prop where
  pieces : handleUnitData ∅ repo.concat = some repo
  demo : ∀ (s : DemoParser) (rest : Bytes), s.recordReader.state = .READ_RECLEN1 →
    demoUnits repo s rest = some repo
  hashes : ∀ (s : DemoParser) (rest : Bytes), s.recordReader.state = .READ_RECLEN1 →
    (demoUnits repo s rest).map hash = some repo.hash

/-- The record of more than 2340 values is written too long for the parser, or not at all. -/
theorem not_survives {repo : UnitDataRepo} (hwell : WellFormed repo) (hmany : 2340 < repo.size) : ¬ Survives repo := by
  intro h
  have hlen := length_concat hwell
  have hboundary : DemoParser.new.recordReader.state = .READ_RECLEN1 := rfl
  have hsome := h.demo .new [] hboundary
  have hnone : demoUnits repo .new [] = none := by
    by_cases hfits : TADemoWriter.Fits repo.concat
    · refine demoUnits_unreadable hfits ?_ hboundary []
      rw [Readable]
      omega
    · exact demoUnits_unfit hfits .new []
  rw [hnone] at hsome
  cases hsome

/-- Every value is kept as the unit it is of, and a repository that is not empty survives the
demo file, if and only if there are at most 2340 values. -/
theorem units_survive_demo_iff (packets : List Bytes) :
    (∀ k pd, (addAll packets)[k]? = some pd → IsKept pd ∧ k = subAndId (unitSub pd) (unitId pd)) ∧
        ((addAll packets).size ≠ 0 → Survives (addAll packets)) ↔
      (addAll packets).size ≤ 2340 := by
  have hwell := wellFormed_addAll packets
  have hlen := length_concat hwell
  constructor
  · intro h
    by_contra hmany
    exact not_survives hwell (by omega) (h.2 (by omega))
  · intro hfew
    refine ⟨fun k pd hk => ⟨(hwell k pd hk).1, (hwell k pd hk).2.symm⟩, fun hne => ?_⟩
    have hpieces := handleUnitData_concat hwell hne (by omega)
    have hfits : TADemoWriter.Fits (addAll packets).concat := by
      rw [TADemoWriter.Fits]
      omega
    have hread : Readable (addAll packets).concat := by
      rw [Readable]
      omega
    have hdemo : ∀ (s : DemoParser) (rest : Bytes), s.recordReader.state = .READ_RECLEN1 →
        demoUnits (addAll packets) s rest = some (addAll packets) :=
      fun s rest hs => (demoUnits_readable hfits hread hs rest).trans hpieces
    refine ⟨hpieces, hdemo, fun s rest hs => ?_⟩
    rw [hdemo s rest hs]
    rfl

/-! ### Too many units -/

theorem isUnit_crcPacket {id : ℕ} (hid : id < 2 ^ 32) : IsUnit 2 id (crcPacket id) := by
  have hlen : (crcPacket id).length = 14 := by simp [crcPacket]
  have hunit : unitId (crcPacket id) = id := by
    have hread : ((crcPacket id).drop 6).take 4 = leBytes 4 id := rfl
    rw [unitId, hread, leVal_leBytes]
    exact Nat.mod_eq_of_lt (by simpa using hid)
  exact ⟨⟨rfl, hlen⟩, rfl, hunit⟩

theorem size_addAll_range {n : ℕ} (hn : n ≤ 2 ^ 32) : (addAll ((List.range n).map crcPacket)).size = n := by
  obtain ⟨entries, hentries⟩ : ∃ entries, entries = (List.range n).map fun id => (subAndId 2 id, crcPacket id) :=
    ⟨_, rfl⟩
  have hvalues : (List.range n).map crcPacket = entries.map (·.2) := by
    rw [hentries, List.map_map]
    rfl
  have hkept : ∀ e ∈ entries, IsKept e.2 ∧ key e.2 = e.1 := by
    intro e he
    rw [hentries] at he
    obtain ⟨id, hid, rfl⟩ := List.mem_map.mp he
    obtain ⟨hunit, hsub, hid'⟩ := isUnit_crcPacket (lt_of_lt_of_le (List.mem_range.mp hid) hn)
    refine ⟨⟨hunit, Or.inl hsub⟩, ?_⟩
    rw [key, hsub, hid']
  have hnodup : (entries.map (·.1)).Nodup := by
    rw [hentries, List.map_map]
    apply List.Nodup.map _ List.nodup_range
    intro a b hab
    have hab : 2 * 2 ^ 32 + a = 2 * 2 ^ 32 + b := hab
    omega
  have hempty : ∀ e ∈ entries, (∅ : UnitDataRepo)[e.1]? = none := fun e _ => by simp
  have hperm : (addAll (entries.map (·.2))).toList.Perm entries := by
    rw [List.perm_ext_iff_of_nodup]
    · intro h
      obtain ⟨k, pd⟩ := h
      rw [Table.mem_toList, addAll, foldl_add_entries hkept hnodup hempty]
      simp
    · exact (addAll (entries.map (·.2))).toList_pairwise.imp fun hlt heq => hlt.ne (congrArg Prod.fst heq)
    · exact hnodup.of_map
  rw [hvalues, ← Std.ExtTreeMap.length_toList, hperm.length_eq, hentries, List.length_map, List.length_range]

/-- The 2341 values are 32774 bytes, and the parser stops at a record of this length. -/
theorem many_units_not_read : (addAll ((List.range 2341).map crcPacket)).size = 2341 ∧
    ¬ Survives (addAll ((List.range 2341).map crcPacket)) := by
  have hsize : (addAll ((List.range 2341).map crcPacket)).size = 2341 := size_addAll_range (by omega)
  exact ⟨hsize, not_survives (wellFormed_addAll _) (by rw [hsize]; omega)⟩

end Gpgnet4TA.Tareplay.TaDemoCompiler.UnitDataRepo
