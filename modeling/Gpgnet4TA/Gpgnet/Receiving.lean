import Gpgnet4TA.Gpgnet.Framing

/-!
# The receiving loop over a stream of commands

Between two chunks the client has consumed everything that arrived: it has emitted the
commands that are complete, and its parser stands inside the next one.
-/

namespace Gpgnet4TA.Gpgnet
open Gpgnet4TA.Lib

theorem Command.send_pos (c : Command) : 0 < c.send.length := by
  have h := offset_mono (c := c) (Nat.zero_le c.args.length)
  rw [offset_zero] at h
  rw [length_send]
  omega

/-- The parser has taken in `p` bytes of the first of the commands still to come. -/
def Inside (rest : List Command) (p : ℕ) (s : GpgNetParse) : Prop :=
  match rest with
  | [] => p = 0 ∧ Idle s
  | c :: _ => p < c.send.length ∧ At c p s

theorem Idle.inside {s : GpgNetParse} (h : Idle s) (rest : List Command) : Inside rest 0 s := by
  cases rest with
  | nil => exact ⟨rfl, h⟩
  | cons c rest => exact ⟨c.send_pos, h.at c⟩

/-- What a client has made of `n` further bytes of `rest`, of which it had `p` before. -/
structure Progress (rest : List Command) (p n : ℕ) (s s' : Client) (got rest' : List Command)
    (p' : ℕ) : Prop where
  split : rest = got ++ rest'
  commands : s'.commands = s.commands ++ got
  unread : s'.unread = []
  warnings : s'.warnings = s.warnings
  position : p + n = (got.flatMap Command.send).length + p'
  inside : Inside rest' p' s'.parser

theorem readLoop_progress (fuel : ℕ) {rest : List Command} (hwf : ∀ c ∈ rest, c.WellFormed) {p : ℕ}
    {s : Client} (hin : Inside rest p s.parser)
    (his : s.unread <+: (rest.flatMap Command.send).drop p) (hfuel : s.unread.length ≤ fuel) :
    ∃ got rest' p', Progress rest p s.unread.length s (s.readLoop fuel) got rest' p' := by
  induction fuel generalizing rest p s with
  | zero =>
    have hnil : s.unread = [] := List.eq_nil_of_length_eq_zero (by omega)
    exact ⟨[], rest, p, ⟨rfl, by simp [Client.readLoop], hnil, rfl, by simp [hnil], hin⟩⟩
  | succ fuel ih =>
    by_cases hnil : s.unread = []
    · have hstay : s.readLoop (fuel + 1) = s := by simp [Client.readLoop, hnil]
      rw [hstay]
      exact ⟨[], rest, p, ⟨rfl, by simp, hnil, rfl, by simp [hnil], hin⟩⟩
    · cases rest with
      | nil => exact absurd (List.prefix_nil.mp (by simpa using his)) hnil
      | cons c rest =>
        obtain ⟨hp, hat⟩ := hin
        have hc := hwf c List.mem_cons_self
        rw [List.flatMap_cons, List.drop_append_of_le_length hp.le] at his
        have hlen : (c.send.drop p).length = c.send.length - p := List.length_drop
        by_cases hall : c.send.length - p ≤ s.unread.length
        · obtain ⟨later, hlater⟩ : c.send.drop p <+: s.unread :=
            List.prefix_of_prefix_length_le (List.prefix_append _ _) his (by omega)
          obtain ⟨parser, hrun, hidle⟩ := getCommand_done hc hat hlater.symm
          have hsize := congrArg List.length hlater
          rw [List.length_append, hlen] at hsize
          rw [← hlater, List.prefix_append_right_inj] at his
          obtain ⟨got, rest', p', h⟩ := ih (s := ⟨parser, later, s.commands ++ [c], s.warnings⟩)
            (fun d hd => hwf d (List.mem_cons_of_mem _ hd)) (hidle.inside rest) (by simpa using his)
            (by simp only []; omega)
          have hstep : s.readLoop (fuel + 1) =
              Client.readLoop fuel ⟨parser, later, s.commands ++ [c], s.warnings⟩ := by
            rw [Client.readLoop, if_neg hnil, hrun]
          rw [hstep]
          refine ⟨c :: got, rest', p', ⟨by rw [h.split]; rfl, ?_, h.unread, h.warnings, ?_, h.inside⟩⟩
          · rw [h.commands, List.append_assoc]
            rfl
          · have hpos := h.position
            simp only [] at hpos
            rw [List.flatMap_cons, List.length_append]
            omega
        · have hpre : s.unread <+: c.send.drop p :=
            List.prefix_of_prefix_length_le his (List.prefix_append _ _) (by omega)
          obtain ⟨parser, hrun, hat'⟩ := getCommand_wait hc hat hpre (by omega)
          have hstep : s.readLoop (fuel + 1) = { s with parser, unread := [] } := by
            rw [Client.readLoop, if_neg hnil, hrun]
          rw [hstep]
          exact ⟨[], c :: rest, p + s.unread.length,
            ⟨rfl, by simp, rfl, rfl, by simp, by omega, hat'⟩⟩

/-- The client after the first `k` bytes of the stream. -/
structure Received (cs : List Command) (k : ℕ) (s : Client) (rest : List Command) (p : ℕ) :
    Prop where
  split : cs = s.commands ++ rest
  unread : s.unread = []
  warnings : s.warnings = []
  position : k = (s.commands.flatMap Command.send).length + p
  inside : Inside rest p s.parser

theorem received_onReadyRead {cs : List Command} (hwf : ∀ c ∈ cs, c.WellFormed) {k : ℕ} {s : Client}
    {rest : List Command} {p : ℕ} (h : Received cs k s rest p) {chunk : Bytes}
    (hchunk : chunk <+: (cs.flatMap Command.send).drop k) :
    ∃ rest' p', Received cs (k + chunk.length) (s.onReadyRead chunk) rest' p' := by
  have hsuffix : (cs.flatMap Command.send).drop k = (rest.flatMap Command.send).drop p := by
    rw [h.split, List.flatMap_append, h.position, ← List.drop_drop,
      List.drop_left' rfl]
  rw [hsuffix] at hchunk
  obtain ⟨got, rest', p', hp⟩ := readLoop_progress (s.unread ++ chunk).length
    (fun c hc => hwf c (by rw [h.split]; exact List.mem_append_right _ hc))
    (s := { s with unread := s.unread ++ chunk }) h.inside (by simpa [h.unread] using hchunk) le_rfl
  have hpos := hp.position
  simp only [h.unread, List.nil_append] at hpos
  refine ⟨rest', p', ⟨?_, hp.unread, hp.warnings.trans h.warnings, ?_, hp.inside⟩⟩
  · rw [Client.onReadyRead, hp.commands, h.split, hp.split, List.append_assoc]
  · rw [Client.onReadyRead, hp.commands, List.flatMap_append, List.length_append, h.position,
      Nat.add_assoc, hpos, Nat.add_assoc]

theorem received_run {cs : List Command} (hwf : ∀ c ∈ cs, c.WellFormed) (chunks : List Bytes)
    (h : chunks.flatten <+: cs.flatMap Command.send) :
    ∃ rest p, Received cs chunks.flatten.length (Client.run chunks) rest p := by
  induction chunks using List.reverseRecOn with
  | nil => exact ⟨cs, 0, ⟨rfl, rfl, rfl, rfl, idle_new.inside cs⟩⟩
  | append_singleton chunks chunk ih =>
    rw [List.flatten_append, List.flatten_singleton] at h
    obtain ⟨rest, p, hr⟩ := ih ((List.prefix_append _ _).trans h)
    obtain ⟨later, hlater⟩ := h
    have hchunk : chunk <+: (cs.flatMap Command.send).drop chunks.flatten.length := by
      rw [← hlater, List.append_assoc, List.drop_left' rfl]
      exact List.prefix_append _ _
    obtain ⟨rest', p', hr'⟩ := received_onReadyRead hwf hr hchunk
    refine ⟨rest', p', ?_⟩
    rw [List.flatten_append, List.flatten_singleton, List.length_append, Client.run,
      List.foldl_append]
    exact hr'

theorem Received.take_prefix {cs : List Command} {k : ℕ} {s : Client} {rest : List Command} {p : ℕ}
    (h : Received cs k s rest p) {j : ℕ}
    (hj : ((cs.take j).flatMap Command.send).length ≤ k) : cs.take j <+: s.commands := by
  have hpre : s.commands <+: cs := by
    rw [h.split]
    exact List.prefix_append _ _
  by_cases hle : j ≤ s.commands.length
  · refine List.prefix_of_prefix_length_le (List.take_prefix j cs) hpre ?_
    rw [List.length_take]
    omega
  · -- otherwise the first `j` commands include all of the one the parser is inside
    cases rest with
    | nil =>
      rw [h.split, List.append_nil]
      exact List.take_prefix j _
    | cons c rest =>
      have htake : cs.take j = s.commands ++ c :: rest.take (j - s.commands.length - 1) := by
        have hj' : j - s.commands.length = j - s.commands.length - 1 + 1 := by omega
        rw [h.split, List.take_append, List.take_of_length_le (by omega), hj', List.take_succ_cons,
          Nat.add_sub_cancel]
      have hp := h.inside.1
      have hk := h.position
      rw [htake, List.flatMap_append, List.flatMap_cons, List.length_append, List.length_append] at hj
      omega

theorem commands_received (cs : List Command) (hwf : ∀ c ∈ cs, c.WellFormed) (chunks : List Bytes)
    (hsplit : chunks.flatten = cs.flatMap Command.send) :
    (Client.run chunks).commands = cs ∧ (Client.run chunks).warnings = [] ∧
      ∀ i, (Client.run (chunks.take i)).commands <+: cs ∧
        ∀ j, ((cs.take j).flatMap Command.send).length ≤ (chunks.take i).flatten.length →
          cs.take j <+: (Client.run (chunks.take i)).commands := by
  obtain ⟨rest, p, hr⟩ := received_run hwf chunks (by rw [hsplit])
  have hall : cs.take cs.length <+: (Client.run chunks).commands :=
    hr.take_prefix (by rw [List.take_length, hsplit])
  rw [List.take_length] at hall
  refine ⟨(hall.eq_of_length_le ?_).symm, hr.warnings, ?_⟩
  · rw [hr.split, List.length_append]
    omega
  · intro i
    have hpre : (chunks.take i).flatten <+: cs.flatMap Command.send := by
      rw [← hsplit]
      conv_rhs => rw [← List.take_append_drop i chunks, List.flatten_append]
      exact List.prefix_append _ _
    obtain ⟨rest', p', hr'⟩ := received_run hwf (chunks.take i) hpre
    refine ⟨?_, fun j hj => hr'.take_prefix hj⟩
    rw [hr'.split]
    exact List.prefix_append _ _

/-- Two commands, split inside the first one's name and inside the second one's byte array. -/
theorem commands_received_split :
    (Client.run [[4, 0, 0, 0, 69], [120, 105, 116, 0, 0, 0, 0, 2], [0, 0, 0, 111, 107, 2, 0, 0, 0, 0, 7,
      0, 0, 0, 1, 3, 0, 0, 0, 97], [98, 99]]).commands =
    [⟨[69, 120, 105, 116], []⟩, ⟨[111, 107], [.int 7, .byteArray [97, 98, 99]]⟩] := by
  refine (commands_received [⟨[69, 120, 105, 116], []⟩,
    ⟨[111, 107], [.int 7, .byteArray [97, 98, 99]]⟩] ?_ _ (by decide)).1
  intro c hc
  rcases List.mem_pair.mp hc with rfl | rfl
  · exact ⟨by decide, by decide, by decide, by simp⟩
  · refine ⟨by decide, by decide, by decide, ?_⟩
    intro a ha
    rcases List.mem_pair.mp ha with rfl | rfl
    · show 7 < 2 ^ 32
      decide
    · show 3 ≤ 10000
      decide

end Gpgnet4TA.Gpgnet
