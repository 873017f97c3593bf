import Gpgnet4TA.Tareplay.DemoCompilerSpec

/-!
# The directory of the demo files

What the file operations of the demo compiler leave in the directory. A stream is opened over a
file that is there, but a rename fails where the new name is taken: then a demo that was to be
kept stays under the name it was written to.
-/

namespace Gpgnet4TA.Tareplay.TaDemoCompiler
open Gpgnet4TA.Lib Gpgnet4TA.Tapacket

/-! ### Names -/

theorem PathTemplate.arg_injective (t : PathTemplate) : Function.Injective t.arg := by
  intro m n h
  rw [arg, arg, String.append_left_inj, String.append_right_inj] at h
  exact Nat.repr_injective h

def nonDigits (name : String) : ℕ := name.toList.countP fun c => !c.isDigit

theorem nonDigits_append (a b : String) : nonDigits (a ++ b) = nonDigits a + nonDigits b := by
  rw [nonDigits, String.toList_append, List.countP_append]
  rfl

theorem nonDigits_toString (n : ℕ) : nonDigits (toString n) = 0 := by
  rw [nonDigits, List.countP_eq_zero]
  intro c hc
  have hlist : (toString n).toList = Nat.toDigits 10 n := String.toList_ofList
  rw [hlist] at hc
  rw [Nat.isDigit_of_mem_toDigits (by decide) (by decide) hc]
  decide

theorem PathTemplate.nonDigits_arg (t : PathTemplate) (n : ℕ) :
    nonDigits (t.arg n) = nonDigits t.before + nonDigits t.after := by
  rw [arg, nonDigits_append, nonDigits_append, nonDigits_toString, Nat.add_zero]

/-- No finished demo has the name of one that is being written. -/
theorem PathTemplate.part_ne_arg (t : PathTemplate) (m n : ℕ) : t.arg m ++ ".part" ≠ t.arg n := by
  intro h
  have hcount := congrArg nonDigits h
  have hpart : nonDigits ".part" = 5 := by decide
  rw [nonDigits_append, nonDigits_arg, nonDigits_arg, hpart] at hcount
  omega

/-! ### File operations -/

/-- What `std::ofstream`, `QFile::rename` and `QFile::remove` do to the files there are. -/
def FileOp.apply (files : Finset String) : FileOp → Finset String
  | .create name => insert name files
  | .rename oldName newName =>
    -- a file that is there is not overwritten
    if oldName ∈ files ∧ newName ∉ files then insert newName (files.erase oldName) else files
  | .remove name => files.erase name

/-- The files in the directory, where `disk` are those at the start. -/
def directory (disk : Finset String) (s : TaDemoCompiler) : Finset String := s.fileOps.foldl FileOp.apply disk

/-- The name that a file loses. -/
def FileOp.takes : FileOp → Option String
  | .create _ => none
  | .rename oldName _ => some oldName
  | .remove name => some name

theorem FileOp.mem_apply {files : Finset String} {name : String} (h : name ∈ files) {op : FileOp}
    (hop : op.takes ≠ some name) : name ∈ op.apply files := by
  cases op with
  | create newName => exact Finset.mem_insert_of_mem h
  | rename oldName newName =>
    rw [apply]
    split
    · exact Finset.mem_insert_of_mem (Finset.mem_erase.mpr ⟨fun hbad => hop (congrArg some hbad.symm), h⟩)
    · exact h
  | remove oldName => exact Finset.mem_erase.mpr ⟨fun hbad => hop (congrArg some hbad.symm), h⟩

theorem mem_foldl_apply {files : Finset String} {name : String} (h : name ∈ files) {ops : List FileOp}
    (hops : ∀ op ∈ ops, op.takes ≠ some name) : name ∈ ops.foldl FileOp.apply files := by
  induction ops generalizing files with
  | nil => exact h
  | cons op ops ih =>
    exact ih (FileOp.mem_apply h (hops op List.mem_cons_self)) fun o ho => hops o (List.mem_cons_of_mem _ ho)

/-! ### Closing -/

variable {minDemoSize : ℕ} {files : Finset String} {game : GameContext} {name : String}

/-- The demo is long enough to be kept. -/
def GameContext.Kept (minDemoSize : ℕ) (game : GameContext) : Prop :=
  ∃ output, game.demoCompilation = some output ∧ minDemoSize ≤ output.length

theorem GameContext.Kept.started (h : game.Kept minDemoSize) : game.demoCompilation.isSome = true := by
  obtain ⟨output, hout, -⟩ := h
  rw [hout]
  rfl

theorem takes_of_mem {op : FileOp} (h : op ∈ fileOpOf minDemoSize game) :
    game.demoCompilation.isSome = true ∧ op.takes = some game.tempFileName := by
  rw [fileOpOf] at h
  split at h
  · cases h
  · rename_i output hout
    rw [hout]
    split at h
    · rw [List.mem_singleton.mp h]
      exact ⟨rfl, rfl⟩
    · rw [List.mem_singleton.mp h]
      exact ⟨rfl, rfl⟩

/-- Closing the game takes this name from its file: the demo is removed, or renamed to a name
that is free. -/
def GameContext.Vacates (minDemoSize : ℕ) (files : Finset String) (name : String) (game : GameContext) : Prop :=
  game.demoCompilation.isSome = true ∧ name = game.tempFileName ∧
    ¬ (game.Kept minDemoSize ∧ game.finalFileName ∈ files)

theorem mem_close (hthere : game.demoCompilation.isSome = true → game.tempFileName ∈ files) :
    name ∈ (fileOpOf minDemoSize game).foldl FileOp.apply files ↔
      (name ∈ files ∧ ¬ game.Vacates minDemoSize files name) ∨
        game.Kept minDemoSize ∧ name = game.finalFileName := by
  rw [fileOpOf, GameContext.Vacates, GameContext.Kept]
  cases hout : game.demoCompilation with
  | none => simp
  | some output =>
    rw [hout] at hthere
    have htemp := hthere rfl
    by_cases hlen : minDemoSize ≤ output.length
    · have hkept : ∃ o, some output = some o ∧ minDemoSize ≤ o.length := ⟨output, rfl, hlen⟩
      by_cases hfree : game.finalFileName ∈ files
      · simp only [hlen, if_true, List.foldl_cons, List.foldl_nil, FileOp.apply, hfree, not_true_eq_false,
          and_false, if_false, hkept, and_true, not_false_eq_true]
        constructor
        · exact Or.inl
        · intro hx
          rcases hx with hx | ⟨-, rfl⟩
          · exact hx
          · exact hfree
      · simp only [hlen, if_true, List.foldl_cons, List.foldl_nil, FileOp.apply, htemp, hfree,
          not_false_eq_true, and_self, Finset.mem_insert, Finset.mem_erase, hkept, and_false,
          and_true, true_and, Option.isSome_some]
        constructor
        · intro hx
          rcases hx with hx | ⟨hne, hx⟩
          · exact Or.inr hx
          · exact Or.inl ⟨hx, hne⟩
        · intro hx
          rcases hx with ⟨hx, hne⟩ | hx
          · exact Or.inr ⟨hne, hx⟩
          · exact Or.inl hx
    · have hgone : ¬ ∃ o, some output = some o ∧ minDemoSize ≤ o.length := by
        intro hx
        obtain ⟨o, ho, hbig⟩ := hx
        cases ho
        exact hlen hbig
      simp only [if_neg hlen, List.foldl_cons, List.foldl_nil, FileOp.apply, Finset.mem_erase, hgone,
        false_and, not_false_eq_true, and_true, Option.isSome_some, true_and, or_false]
      exact and_comm

/-- The files of the games have names of their own and are in the directory. -/
structure Apart (files : Finset String) (games : List GameContext) : Prop where
  there : ∀ game ∈ games, game.demoCompilation.isSome = true → game.tempFileName ∈ files
  names : ∀ game ∈ games, ∀ game' ∈ games, game.demoCompilation.isSome = true →
    game'.demoCompilation.isSome = true → game.tempFileName ≠ game'.finalFileName
  distinct : games.Pairwise fun game game' => game.demoCompilation.isSome = true →
    game'.demoCompilation.isSome = true →
      game.tempFileName ≠ game'.tempFileName ∧ game.finalFileName ≠ game'.finalFileName

/-- Closing one of the games is nothing to the others. -/
theorem Apart.tail {games : List GameContext} (h : Apart files (game :: games)) :
    Apart ((fileOpOf minDemoSize game).foldl FileOp.apply files) games ∧
      ∀ game' ∈ games, (game'.Vacates minDemoSize ((fileOpOf minDemoSize game).foldl FileOp.apply files) name ↔
        game'.Vacates minDemoSize files name) := by
  have hclose : ∀ n, n ∈ (fileOpOf minDemoSize game).foldl FileOp.apply files ↔
      (n ∈ files ∧ ¬ game.Vacates minDemoSize files n) ∨ game.Kept minDemoSize ∧ n = game.finalFileName :=
    fun n => mem_close (h.there game List.mem_cons_self)
  obtain ⟨hfirst, hrest⟩ := List.pairwise_cons.mp h.distinct
  constructor
  · refine ⟨?_, ?_, hrest⟩
    · intro game' hmem hstarted
      refine (hclose _).mpr (Or.inl ⟨h.there game' (List.mem_cons_of_mem _ hmem) hstarted, ?_⟩)
      intro hv
      exact (hfirst game' hmem hv.1 hstarted).1 hv.2.1.symm
    · intro g hg g' hg'
      exact h.names g (List.mem_cons_of_mem _ hg) g' (List.mem_cons_of_mem _ hg')
  · intro game' hmem
    have hfinal : game'.demoCompilation.isSome = true →
        (game'.finalFileName ∈ (fileOpOf minDemoSize game).foldl FileOp.apply files ↔ game'.finalFileName ∈ files) := by
      intro hstarted
      rw [hclose]
      constructor
      · intro hx
        rcases hx with hx | ⟨hkept, hname⟩
        · exact hx.1
        · exact absurd hname.symm (hfirst game' hmem hkept.started hstarted).2
      · intro hx
        refine Or.inl ⟨hx, ?_⟩
        intro hv
        exact h.names game List.mem_cons_self game' (List.mem_cons_of_mem _ hmem) hv.1 hstarted hv.2.1.symm
    unfold GameContext.Vacates
    refine and_congr_right fun hstarted => ?_
    rw [hfinal hstarted]

/-- What is left after all of them are closed. -/
theorem mem_closeAll {games : List GameContext} (h : Apart files games) :
    name ∈ (games.flatMap (fileOpOf minDemoSize)).foldl FileOp.apply files ↔
      (name ∈ files ∧ ¬ ∃ game ∈ games, game.Vacates minDemoSize files name) ∨
        ∃ game ∈ games, game.Kept minDemoSize ∧ name = game.finalFileName := by
  induction games generalizing files with
  | nil => simp
  | cons game games ih =>
    obtain ⟨htail, hvacates⟩ := @Apart.tail minDemoSize files game name games h
    have hsame : (∃ g ∈ games, g.Vacates minDemoSize ((fileOpOf minDemoSize game).foldl FileOp.apply files) name) ↔
        ∃ g ∈ games, g.Vacates minDemoSize files name :=
      exists_congr fun g => and_congr_right fun hg => hvacates g hg
    -- a name that is given to a file is not taken from another
    have hgiven : game.Kept minDemoSize ∧ name = game.finalFileName →
        ¬ ∃ g ∈ games, g.Vacates minDemoSize files name := by
      intro hkept hx
      obtain ⟨g, hg, hv⟩ := hx
      exact h.names g (List.mem_cons_of_mem _ hg) game List.mem_cons_self hv.1 hkept.1.started
        (hv.2.1.symm.trans hkept.2)
    rw [List.flatMap_cons, List.foldl_append, ih htail, hsame, mem_close (h.there game List.mem_cons_self)]
    simp only [List.mem_cons, exists_eq_or_imp]
    rw [not_or, or_and_right, and_iff_left_of_imp hgiven, or_assoc, and_assoc]

/-! ### What the timer does -/

theorem foldl_closeGame_ops (ids : List ℕ) (s : TaDemoCompiler) :
    ∃ ops, (ids.foldl closeGame s).fileOps = s.fileOps ++ ops ∧ ∀ op ∈ ops,
      ∃ (k : ℕ) (game : GameContext), k ∈ ids ∧ s.games[k]? = some game ∧ op ∈ fileOpOf s.minDemoSize game := by
  induction ids generalizing s with
  | nil => exact ⟨[], (List.append_nil _).symm, fun op hop => absurd hop List.not_mem_nil⟩
  | cons id ids ih =>
    obtain ⟨ops, hops, hmem⟩ := ih (s.closeGame id)
    refine ⟨fileOpOf s.minDemoSize (gameAt s.games id) ++ ops, ?_, ?_⟩
    · rw [List.foldl_cons, hops, closeGame, List.append_assoc]
    · intro op hop
      rcases List.mem_append.mp hop with hop | hop
      · cases hgame : s.games[id]? with
        | none =>
          rw [gameAt, hgame] at hop
          exact absurd hop List.not_mem_nil
        | some game =>
          rw [gameAt, hgame] at hop
          exact ⟨id, game, List.mem_cons_self, hgame, hop⟩
      · obtain ⟨k, game, hk, hgame, hop⟩ := hmem op hop
        rw [closeGame, Table.getElem?_erase] at hgame
        split at hgame
        · cases hgame
        · exact ⟨k, game, List.mem_cons_of_mem _ hk, hgame, hop⟩

/-- Every operation of the timer is on the open file of a game that expires. -/
theorem closeExpiredGames_ops (s : TaDemoCompiler) : ∃ ops, s.closeExpiredGames.fileOps = s.fileOps ++ ops ∧
    ∀ op ∈ ops, ∃ (k : ℕ) (game : GameContext), k ∈ expiredGameIds (s.games.map fun _ => countDown) ∧
      s.games[k]? = some game ∧ game.demoCompilation.isSome = true ∧ op.takes = some game.tempFileName := by
  obtain ⟨ops, hops, hmem⟩ := foldl_closeGame_ops (expiredGameIds (s.games.map fun _ => countDown))
    { s with games := s.games.map fun _ => countDown }
  refine ⟨ops, hops, ?_⟩
  intro op hop
  obtain ⟨k, game', hk, hgame', hop⟩ := hmem op hop
  obtain ⟨hopen, htakes⟩ := takes_of_mem hop
  have hmap : s.games[k]?.map countDown = some game' := by
    rw [← Std.ExtTreeMap.getElem?_map (f := fun _ => countDown)]
    exact hgame'
  obtain ⟨game, hgame, rfl⟩ := Option.map_eq_some_iff.mp hmap
  exact ⟨k, game, hk, hgame, hopen, htakes⟩

end Gpgnet4TA.Tareplay.TaDemoCompiler
