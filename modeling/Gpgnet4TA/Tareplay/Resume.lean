import Gpgnet4TA.Tareplay.Escrow
import Gpgnet4TA.Tareplay.ReplayClient

/-!
# Resuming a replay

What the server writes to a connection is the file from the position of the subscription on,
so the client's buffer is a beginning of the file, provided that the server seeks to the
position it is given and that the client's parser starts each connection at the beginning of
a command.
-/

namespace Gpgnet4TA.Tareplay
open Gpgnet4TA.Lib Gpgnet4TA.Gpgnet

/-! ### What is sent -/

/-- The part of the file that a command carries. -/
def okData (c : Command) : Bytes :=
  match c.args with
  | [.int status, .byteArray data] => if status = TaReplayServerStatus.OK.toInt then data else []
  | _ => []

def okDatas (cs : List Command) : Bytes := cs.flatMap okData

@[simp]
theorem okDatas_append (cs cs' : List Command) : okDatas (cs ++ cs') = okDatas cs ++ okDatas cs' := by
  simp [okDatas]

/-- The commands of the server. -/
def IsData (c : Command) : Prop := ∃ status data, c = sendData status data ∧ data.length ≤ CHUNK_SIZE

theorem IsData.wellFormed {c : Command} (h : IsData c) : c.WellFormed := by
  obtain ⟨status, data, rfl, hlen⟩ := h
  have hlen' : data.length ≤ 1000 := hlen
  have hname : 0 < TaReplayServerData.ID.length ∧ TaReplayServerData.ID.length ≤ MAX_RECORD_SIZE := by
    decide
  refine ⟨hname.1, hname.2, by show 2 ≤ 10; omega, ?_⟩
  intro a ha
  rcases List.mem_pair.mp ha with rfl | rfl
  · show status.toInt < 2 ^ 32
    cases status <;> decide
  · show data.length ≤ 10000
    omega

theorem sendChunks_data (files : Files) (threshold maxBytes : ℤ) (fuel : ℕ) (h : Handle)
    (bytesToWrite : ℕ) :
    let sent := sendChunks files threshold maxBytes fuel h bytesToWrite
    (∀ c ∈ sent.1, c.data.length ≤ CHUNK_SIZE) ∧
      (h.good = true → sent.2.1.pos = h.pos + (sent.1.flatMap (·.data)).length ∧
        (files.content h.game).take h.pos ++ sent.1.flatMap (·.data) =
          (files.content h.game).take sent.2.1.pos) := by
  induction fuel generalizing h bytesToWrite with
  | zero => simp [sendChunks]
  | succ fuel ih =>
    simp only [sendChunks]
    split
    · simp
    · set n := min (int32 (threshold - h.tellg)) (CHUNK_SIZE : ℤ) with hn
      set data := h.read files n.toNat with hdata
      obtain ⟨hsmall, hrest⟩ := ih { h with pos := h.pos + data.length }
        (bytesToWrite + (sendData .OK data).send.length)
      have hlen : data.length ≤ CHUNK_SIZE := by
        have hle : n ≤ CHUNK_SIZE := min_le_right _ _
        have hread : data.length ≤ n.toNat := by
          rw [hdata, Handle.read]
          split
          · exact (List.length_take ..).le.trans (min_le_left _ _)
          · exact Nat.zero_le _
        omega
      refine ⟨?_, ?_⟩
      · intro c hc
        rcases List.mem_cons.mp hc with rfl | hc
        · exact hlen
        · exact hsmall c hc
      · intro hgood
        obtain ⟨hpos, hcont⟩ := hrest hgood
        have hfirst : (files.content h.game).take h.pos ++ data =
            (files.content h.game).take (h.pos + data.length) := by
          have hread : data = ((files.content h.game).drop h.pos).take n.toNat := by
            rw [hdata, Handle.read, if_pos hgood]
          rw [List.take_add]
          congr 1
          rw [hread]
          exact List.prefix_iff_eq_take.mp (List.take_prefix _ _)
        refine ⟨?_, ?_⟩
        · simp only [List.flatMap_cons, List.length_append]
          rw [hpos]
          simp only []
          omega
        · simp only [List.flatMap_cons]
          rw [← List.append_assoc, hfirst]
          exact hcont

theorem service_data (w : World) (user : UserContext) :
    (∀ c ∈ (w.service user).2, c.data.length ≤ CHUNK_SIZE) ∧
    (user.demoFile = none → (w.service user).1.demoFile = none) ∧
    (w.service user).1.receiver = user.receiver ∧
    ∀ h, user.demoFile = some h → ∃ h', (w.service user).1.demoFile = some h' ∧ h'.game = h.game ∧
      h'.good = h.good ∧ (h.good = false → (w.service user).2 = []) ∧
      (h.good = true → h'.pos = h.pos + ((w.service user).2.flatMap (·.data)).length ∧
        (w.files.content h.game).take h.pos ++ (w.service user).2.flatMap (·.data) =
          (w.files.content h.game).take h'.pos) := by
  unfold World.service serviceUser
  cases hdemo : user.demoFile with
  | none => simp [hdemo]
  | some h =>
    simp only []
    cases hthr : dataEscrowThreshold w.server.gameInfo w.server.maxBytesPerUserPerSecond user.gameId h with
    | none => simp [hdemo]
    | some threshold =>
      simp only []
      set m := w.server.maxBytesPerUserPerSecond
      obtain ⟨hsmall, hdata⟩ := sendChunks_data w.files threshold m m.toNat h user.bytesToWrite
      obtain ⟨hgame, hgood⟩ := sendChunks_handle w.files threshold m m.toNat h user.bytesToWrite
      refine ⟨hsmall, by simp, trivial, ?_⟩
      intro h0 h0'
      cases h0'
      refine ⟨_, rfl, hgame, hgood, ?_, hdata⟩
      intro hbad
      rw [sendChunks_bad _ _ _ _ _ _ hbad]

/-! ### The client's loop -/

theorem onCommand_sendData (c : TaReplayClient) (status : TaReplayServerStatus) (data : Bytes) :
    ∃ c', c.onCommand (sendData status data) = some c' ∧
      c'.replayBuffer = c.replayBuffer ++ okData (sendData status data) ∧
      c'.position % 2 ^ 32 = (c.position + (okData (sendData status data)).length) % 2 ^ 32 ∧
      (c.position < 2 ^ 32 → c'.position < 2 ^ 32) ∧ c'.receiver = c.receiver ∧
      c'.tafGameId = c.tafGameId := by
  by_cases hok : status.toInt = TaReplayServerStatus.OK.toInt
  · refine ⟨{ c with replayBuffer := c.replayBuffer ++ data,
                      position := (c.position + data.length) % 2 ^ 32 }, ?_, ?_, ?_, ?_, rfl, rfl⟩
    · simp [TaReplayClient.onCommand, sendData, TaReplayServerData.set, toUInt, toByteArray, hok]
    · simp [okData, sendData, hok]
    · simp [okData, sendData, hok]
    · intro _
      exact Nat.mod_lt _ (by positivity)
  · refine ⟨{ c with gameNotFound := c.gameNotFound ++ [status.toInt] }, ?_, ?_, ?_, id, rfl, rfl⟩
    · simp [TaReplayClient.onCommand, sendData, TaReplayServerData.set, toUInt, hok]
    · simp [okData, sendData, hok]
    · simp [okData, sendData, hok]

theorem onCommands_datas (cs : List Command) (hcs : ∀ c ∈ cs, IsData c) (c : TaReplayClient)
    (hpos : c.position < 2 ^ 32) :
    ∃ c', TaReplayClient.onCommands cs c = some c' ∧
      c'.replayBuffer = c.replayBuffer ++ okDatas cs ∧
      c'.position = (c.position + (okDatas cs).length) % 2 ^ 32 ∧ c'.receiver = c.receiver ∧
      c'.tafGameId = c.tafGameId := by
  induction cs generalizing c with
  | nil => exact ⟨c, rfl, by simp [okDatas], (Nat.mod_eq_of_lt hpos).symm, rfl, rfl⟩
  | cons d cs ih =>
    obtain ⟨status, data, rfl, -⟩ := hcs d List.mem_cons_self
    obtain ⟨c1, hrun, hbuf, hmod, hlt, hrec, hid⟩ := onCommand_sendData c status data
    obtain ⟨c2, hrun2, hbuf2, hmod2, hrec2, hid2⟩ :=
      ih (fun d hd => hcs d (List.mem_cons_of_mem _ hd)) c1 (hlt hpos)
    refine ⟨c2, ?_, ?_, ?_, hrec2.trans hrec, hid2.trans hid⟩
    · rw [TaReplayClient.onCommands, hrun]
      exact hrun2
    · rw [hbuf2, hbuf, List.append_assoc]
      rfl
    · rw [hmod2, Nat.add_mod, hmod, ← Nat.add_mod]
      simp only [okDatas, List.flatMap_cons, List.length_append, Nat.add_assoc]

/-! ### The invariant -/

/-- The server's side of a connection on which the client subscribed to `G` at `start`. -/
structure UserSide (G start sent : ℕ) (arrived : ℕ) (user : UserContext) : Prop where
  received : ∃ rest p, Received [subscribeCommand G start] arrived user.receiver rest p
  fresh : user.receiver.commands = [] → user.demoFile = none ∧ sent = 0
  handle : ∀ h, user.demoFile = some h → h.good = true → h.game = G ∧ h.pos = start + sent

structure ConnectionOk (G : ℕ) (s : System) (c : Connection) (start : ℕ) (got rest : List Command)
    (p : ℕ) : Prop where
  sent : c.sent = (subscribeCommand G start).send
  start_lt : start < 2 ^ 32
  data : ∀ d ∈ s.world.written c.socket, IsData d
  stream : (s.world.files.content G).take start ++ okDatas (s.world.written c.socket) =
    (s.world.files.content G).take (start + (okDatas (s.world.written c.socket)).length)
  written : s.world.written c.socket = got ++ rest
  received : c.received = (got.flatMap Command.send).length + p
  inside : Inside rest p s.client.receiver.parser
  unread : s.client.receiver.unread = []
  buffer : s.client.replayBuffer = (s.world.files.content G).take start ++ okDatas got
  position : s.client.position = start + (okDatas got).length
  within : start + (okDatas (s.world.written c.socket)).length ≤ (s.world.files.content G).length
  user : ∀ user : UserContext, s.world.server.users[c.socket]? = some user →
    UserSide G start (okDatas (s.world.written c.socket)).length c.arrived user

structure ResumeOk (G : ℕ) (s : System) : Prop where
  gameId : s.client.tafGameId = G
  short : (s.world.files.content G).length < 2 ^ 32
  buffer : s.client.replayBuffer = (s.world.files.content G).take s.client.position
  position : s.client.position ≤ (s.world.files.content G).length
  connection : ∀ c, s.connection = some c → ∃ start got rest p, ConnectionOk G s c start got rest p

/-! ### The condition -/

/-- If the subscription gets to the file, its log reaches back far enough and covers the
position. -/
def SeeksTo (w : World) (msg : TaReplayServerSubscribe) : Prop :=
  ∀ game ∈ w.server.gameInfo[msg.gameId]?, 0 ≤ game.delaySeconds → ∀ f ∈ w.files msg.gameId,
    f.readable = true → ∃ log ∈ game.demoFileSizeLog,
      game.delaySeconds < log.length ∧ msg.position ≤ (log.headD 0 % 2 ^ 32).toNat

/-- What a run must keep to for the download to resume where it stopped. -/
def Resumes (G : ℕ) (s : System) : SystemEvent → Prop
  | .server (.append game data) => game = G → (s.world.files.content G ++ data).length < 2 ^ 32
  | .connect _ => Idle s.client.receiver.parser
  | .toServer n => ∀ c ∈ s.connection, ∀ user ∈ s.world.server.users[c.socket]?,
      ∀ d ∈ user.arrived (System.chunkToServer c n), ∀ msg ∈ TaReplayServerSubscribe.set d.args,
        msg.position = 0 ∨ SeeksTo s.world msg
  | _ => True

instance (parser : GpgNetParse) : Decidable (Idle parser) :=
  decidable_of_iff ((parser.command.size.buffer.length = 4 ∧ parser.command.size.progress = 0) ∧
      parser.command.data.progress = 0 ∧
      (parser.numArgs.buffer.length = 4 ∧ parser.numArgs.progress = 0) ∧
      parser.argTypes.isEmpty = true ∧ parser.args.isEmpty = true) <| by
    rw [List.isEmpty_iff, List.isEmpty_iff]
    exact ⟨fun ⟨h1, h2, h3, h4, h5⟩ => ⟨h1, h2, h3, h4, h5⟩,
      fun h => ⟨h.commandSize, h.commandData, h.numArgs, h.argTypes, h.args⟩⟩

instance (G : ℕ) (s : System) (e : SystemEvent) : Decidable (Resumes G s e) := by
  unfold Resumes SeeksTo
  split <;> infer_instance

/-! ### Steps of the server -/

/-- What a step other than a tick leaves alone on a socket it is not about. -/
structure Frame (socket : ℕ) (w w' : World) : Prop where
  content : ∀ g, w.files.content g <+: w'.files.content g
  written : w'.written socket = w.written socket
  user : ∀ user' : UserContext, w'.server.users[socket]? = some user' →
    ∃ user : UserContext, w.server.users[socket]? = some user ∧ user'.receiver = user.receiver ∧
      user'.demoFile = user.demoFile

section steps

variable {socket : ℕ} {w w' : World}

theorem Frame.of_users (hfiles : w'.files = w.files) (hwritten : w'.written socket = w.written socket)
    (huser : w'.server.users[socket]? = w.server.users[socket]?) : Frame socket w w' where
  content := fun g => by rw [hfiles]
  written := hwritten
  user := fun user hu => ⟨user, by rw [← huser]; exact hu, rfl, rfl⟩

@[simp]
theorem setUser_files (w : World) (socket : ℕ) (user : UserContext) :
    (w.setUser socket user).files = w.files := rfl

@[simp]
theorem removeUser_files (w : World) (socket : ℕ) : (w.removeUser socket).files = w.files := rfl

@[simp]
theorem write_files (w : World) (socket : ℕ) (out : List Command) :
    (w.write socket out).files = w.files := rfl

theorem content_step {e : Event} (hs : w.step e = some w') (g : ℕ) :
    w'.files.content g = w.files.content g ∨
      ∃ data, e = .append g data ∧ w'.files.content g = w.files.content g ++ data := by
  cases e with
  | create game readable =>
    simp only [World.step, World.create] at hs
    split at hs
    · cases hs
    · rename_i hnone
      cases hs
      left
      by_cases hg : g = game
      · subst hg
        simp [Files.content, Option.not_isSome_iff_eq_none.mp hnone]
      · simp [Files.content, Function.update_of_ne hg]
  | append game data =>
    obtain ⟨f, hf, rfl⟩ := Option.map_eq_some_iff.mp hs
    by_cases hg : g = game
    · subst hg
      exact Or.inr ⟨data, rfl, by simp [Files.content, hf]⟩
    · exact Or.inl (by simp [Files.content, Function.update_of_ne hg])
  | setGameInfo gameId delaySeconds state =>
    cases hs
    exact Or.inl rfl
  | newConnection socket =>
    cases hs
    unfold World.newConnection
    split <;> simp
  | disconnected socket =>
    cases hs
    exact Or.inl rfl
  | readyRead socket chunk =>
    simp only [World.step, World.readyRead] at hs
    split at hs
    · cases hs
      exact Or.inl rfl
    · obtain ⟨⟨user', out⟩, -, hend⟩ := Option.map_eq_some_iff.mp hs
      rw [← hend]
      simp only []
      split <;> simp
  | bytesWritten socket n =>
    cases hs
    unfold World.bytesWritten
    split <;> simp
  | timerEvent =>
    simp only [World.step, World.timerEvent] at hs
    split at hs
    · cases hs
    · cases hs
      exact Or.inl rfl

theorem content_grows {e : Event} (hs : w.step e = some w') (g : ℕ) :
    w.files.content g <+: w'.files.content g := by
  rcases content_step hs g with heq | ⟨data, -, heq⟩
  · rw [heq]
  · rw [heq]
    exact List.prefix_append _ _

theorem frame_setUser {socket' : ℕ} (user : UserContext) (hne : socket' ≠ socket) :
    Frame socket w (w.setUser socket' user) := by
  refine .of_users rfl rfl ?_
  simp [World.setUser, Std.ExtTreeMap.getElem?_insert, hne]

theorem frame_removeUser (socket' : ℕ) : Frame socket w (w.removeUser socket') where
  content := fun g => List.prefix_rfl
  written := rfl
  user := by
    intro user hu
    simp only [World.removeUser, Std.ExtTreeMap.getElem?_erase] at hu
    split at hu
    · cases hu
    · exact ⟨user, hu, rfl, rfl⟩

theorem Frame.write (h : Frame socket w w') {socket' : ℕ} (hne : socket' ≠ socket)
    (out : List Command) : Frame socket w (w'.write socket' out) where
  content := h.content
  written := by
    rw [← h.written]
    simp [World.write, Function.update_of_ne (Ne.symm hne)]
  user := h.user

theorem frame_step {e : Event} (hs : w.step e = some w') (hav : e.avoids socket = true)
    (htick : e ≠ .timerEvent) : Frame socket w w' := by
  have hcontent := content_grows hs
  cases e with
  | create game readable =>
    simp only [World.step, World.create] at hs
    split at hs
    · cases hs
    · cases hs
      exact ⟨hcontent, rfl, fun user hu => ⟨user, hu, rfl, rfl⟩⟩
  | append game data =>
    obtain ⟨f, -, rfl⟩ := Option.map_eq_some_iff.mp hs
    exact ⟨hcontent, rfl, fun user hu => ⟨user, hu, rfl, rfl⟩⟩
  | setGameInfo gameId delaySeconds state =>
    cases hs
    exact .of_users rfl rfl (by rw [setGameInfo_users])
  | newConnection socket' =>
    have hne : socket' ≠ socket := by simpa [Event.avoids] using hav
    cases hs
    unfold World.newConnection
    split
    · exact .of_users rfl rfl rfl
    · exact frame_setUser _ hne
  | disconnected socket' =>
    cases hs
    exact frame_removeUser socket'
  | readyRead socket' chunk =>
    have hne : socket' ≠ socket := by simpa [Event.avoids] using hav
    simp only [World.step, World.readyRead] at hs
    split at hs
    · cases hs
      exact .of_users rfl rfl rfl
    · obtain ⟨⟨user', out⟩, -, hend⟩ := Option.map_eq_some_iff.mp hs
      simp only [] at hend
      split at hend
      · rw [← hend]
        exact (frame_setUser user' hne).write hne out
      · rw [← hend]
        exact (frame_removeUser socket').write hne out
  | bytesWritten socket' n =>
    cases hs
    unfold World.bytesWritten
    split
    · exact .of_users rfl rfl rfl
    · rename_i user hu
      by_cases hsocket : socket' = socket
      · subst hsocket
        refine ⟨fun g => List.prefix_rfl, rfl, ?_⟩
        intro user' hu'
        simp only [World.setUser, Std.ExtTreeMap.getElem?_insert_self] at hu'
        cases hu'
        exact ⟨user, hu, rfl, rfl⟩
      · exact frame_setUser _ hsocket
  | timerEvent => exact absurd rfl htick

end steps

section systemSteps

variable {G : ℕ} {s s' : System} {c : Connection} {start p : ℕ} {got rest : List Command}

theorem take_of_isPrefix {l l' : Bytes} (h : l <+: l') {n : ℕ} (hn : n ≤ l.length) :
    l'.take n = l.take n := by
  obtain ⟨t, rfl⟩ := h
  exact List.take_append_of_le_length hn

theorem UserSide.same {sent arrived : ℕ} {user user' : UserContext}
    (h : UserSide G start sent arrived user) (hrec : user'.receiver = user.receiver)
    (hfile : user'.demoFile = user.demoFile) : UserSide G start sent arrived user' := by
  refine ⟨?_, ?_, ?_⟩
  · rw [hrec]
    exact h.received
  · rw [hrec, hfile]
    exact h.fresh
  · rw [hfile]
    exact h.handle

theorem ConnectionOk.frame (h : ConnectionOk G s c start got rest p) {world : World}
    (hf : Frame c.socket s.world world) :
    ConnectionOk G { s with world } c start got rest p := by
  have hcont := hf.content G
  have hwithin := h.within
  have hstart : (world.files.content G).take start = (s.world.files.content G).take start :=
    take_of_isPrefix hcont (by omega)
  refine ⟨h.sent, h.start_lt, ?_, ?_, ?_, h.received, h.inside, h.unread, ?_, h.position, ?_, ?_⟩
  · rw [hf.written]
    exact h.data
  · rw [hf.written, hstart, take_of_isPrefix hcont hwithin]
    exact h.stream
  · rw [hf.written]
    exact h.written
  · rw [hstart]
    exact h.buffer
  · rw [hf.written]
    exact hwithin.trans hcont.length_le
  · intro user' hu'
    obtain ⟨user, hu, hrec, hfile⟩ := hf.user user' hu'
    rw [hf.written]
    exact (h.user user hu).same hrec hfile

theorem ResumeOk.setWorld (h : ResumeOk G s) {world : World}
    (hcont : s.world.files.content G <+: world.files.content G)
    (hshort : (world.files.content G).length < 2 ^ 32)
    (hconn : ∀ c, s.connection = some c → ∀ start got rest p, ConnectionOk G s c start got rest p →
      ∃ got rest p, ConnectionOk G { s with world } c start got rest p) :
    ResumeOk G { s with world } := by
  refine ⟨h.gameId, hshort, ?_, h.position.trans hcont.length_le, ?_⟩
  · rw [take_of_isPrefix hcont h.position]
    exact h.buffer
  · intro c hc
    obtain ⟨start, got, rest, p, hok⟩ := h.connection c hc
    obtain ⟨got', rest', p', hok'⟩ := hconn c hc start got rest p hok
    exact ⟨start, got', rest', p', hok'⟩

theorem inside_append {rest more : List Command} {p : ℕ} {parser : GpgNetParse}
    (h : Inside rest p parser) : Inside (rest ++ more) p parser := by
  cases rest with
  | nil =>
    obtain ⟨rfl, hidle⟩ := h
    exact hidle.inside more
  | cons d rest => exact h

/-! ### A tick -/

theorem okDatas_chunks (chunks : List Chunk) :
    okDatas (chunks.map fun d => sendData .OK d.data) = chunks.flatMap (·.data) := by
  induction chunks with
  | nil => rfl
  | cons d chunks ih =>
    rw [List.map_cons, List.flatMap_cons, ← ih]
    simp [okDatas, okData, sendData]

theorem UserSide.service {w : World} {sent arrived : ℕ} {user : UserContext}
    (h : UserSide G start sent arrived user) :
    UserSide G start (sent + ((w.service user).2.flatMap (·.data)).length) arrived (w.service user).1 ∧
    ((w.service user).2 = [] ∨
      (w.files.content G).take (start + sent) ++ (w.service user).2.flatMap (·.data) =
        (w.files.content G).take (start + sent + ((w.service user).2.flatMap (·.data)).length)) := by
  obtain ⟨-, hnone, hrec, hsome⟩ := service_data w user
  cases hdemo : user.demoFile with
  | none =>
    have hempty : w.service user = (user, []) := by
      simp [World.service, serviceUser, hdemo]
    rw [hempty]
    exact ⟨h, Or.inl rfl⟩
  | some hd =>
    obtain ⟨hd', hdemo', hgame, hgood, hbad, hcont⟩ := hsome hd hdemo
    cases hopen : hd.good with
    | false =>
      rw [hbad hopen]
      refine ⟨⟨?_, ?_, ?_⟩, Or.inl rfl⟩
      · rw [hrec]
        exact h.received
      · intro hcmd
        rw [hrec] at hcmd
        have hf := (h.fresh hcmd).1
        rw [hdemo] at hf
        cases hf
      · intro hd2 hdemo2 hgood2
        rw [hdemo'] at hdemo2
        cases hdemo2
        rw [hgood, hopen] at hgood2
        cases hgood2
    | true =>
      obtain ⟨hG, hpos⟩ := h.handle hd hdemo hopen
      obtain ⟨hpos', hdata⟩ := hcont hopen
      refine ⟨⟨?_, ?_, ?_⟩, Or.inr ?_⟩
      · rw [hrec]
        exact h.received
      · intro hcmd
        rw [hrec] at hcmd
        have hf := (h.fresh hcmd).1
        rw [hdemo] at hf
        cases hf
      · intro hd2 hdemo2 _
        rw [hdemo'] at hdemo2
        cases hdemo2
        exact ⟨hgame.trans hG, by omega⟩
      · rw [hpos', hG, hpos] at hdata
        exact hdata

theorem ConnectionOk.tick (h : ConnectionOk G s c start got rest p) {world : World}
    (hs : s.world.timerEvent = some world) :
    ∃ more, ConnectionOk G { s with world } c start got (rest ++ more) p := by
  unfold World.timerEvent at hs
  split at hs
  · cases hs
  cases hs
  set w1 := s.world.updateLogs with hw1
  have hwithin := h.within
  set more := (w1.chunksFor c.socket).map fun d => sendData .OK d.data with hmore
  set sent := okDatas (s.world.written c.socket) with hsent
  have hwritten : w1.serviceUsers.written c.socket = s.world.written c.socket ++ more := rfl
  have hsent' : okDatas (s.world.written c.socket ++ more) = sent ++ okDatas more := okDatas_append _ _
  -- what is sent continues the file
  have hcont : more = [] ∨ (s.world.files.content G).take (start + sent.length) ++ okDatas more =
      (s.world.files.content G).take (start + sent.length + (okDatas more).length) := by
    rw [hmore, okDatas_chunks, World.chunksFor]
    cases hu : w1.server.users[c.socket]? with
    | none => exact Or.inl rfl
    | some user =>
      rcases ((h.user user hu).service (w := w1)).2 with hnil | hdata
      · rw [Option.elim_some, hnil]
        exact Or.inl rfl
      · exact Or.inr hdata
  refine ⟨more, h.sent, h.start_lt, ?_, ?_, ?_, h.received, inside_append h.inside, h.unread, h.buffer,
    h.position, ?_, ?_⟩
  · intro d hd
    rw [hwritten] at hd
    rcases List.mem_append.mp hd with hd | hd
    · exact h.data d hd
    · obtain ⟨chunk, hchunk, rfl⟩ := List.mem_map.mp hd
      refine ⟨.OK, chunk.data, rfl, ?_⟩
      unfold World.chunksFor at hchunk
      cases hu : w1.server.users[c.socket]? with
      | none =>
        rw [hu] at hchunk
        cases hchunk
      | some user =>
        rw [hu] at hchunk
        exact (service_data w1 user).1 chunk hchunk
  · rw [hwritten, hsent', ← List.append_assoc, List.length_append, ← Nat.add_assoc]
    show (s.world.files.content G).take start ++ sent ++ okDatas more = _
    rw [hsent, h.stream]
    rcases hcont with hnil | hcont
    · rw [hnil, show okDatas [] = [] from rfl, List.append_nil]
      rfl
    · exact hcont
  · rw [hwritten, h.written, List.append_assoc]
  · rw [hwritten, hsent', List.length_append]
    show _ ≤ (s.world.files.content G).length
    rcases hcont with hnil | hcont
    · rw [hnil]
      simpa [okDatas] using hwithin
    · have hlen := congrArg List.length hcont
      rw [List.length_append, List.length_take, List.length_take] at hlen
      omega
  · intro user' hu'
    simp only [World.serviceUsers, Std.ExtTreeMap.getElem?_map] at hu'
    obtain ⟨user, hu, rfl⟩ := Option.map_eq_some_iff.mp hu'
    rw [hwritten, hsent', List.length_append, hmore, okDatas_chunks, World.chunksFor, hu]
    exact ((h.user user hu).service (w := w1)).1

/-! ### The subscription arrives -/

theorem subscribeCommand_wellFormed {gameId position : ℕ} (hG : gameId < 2 ^ 32)
    (hp : position < 2 ^ 32) : (subscribeCommand gameId position).WellFormed := by
  have hname : 0 < TaReplayServerSubscribe.ID.length ∧
      TaReplayServerSubscribe.ID.length ≤ MAX_RECORD_SIZE := by
    decide
  refine ⟨hname.1, hname.2, by show 2 ≤ 10; omega, ?_⟩
  intro a ha
  rcases List.mem_pair.mp ha with rfl | rfl
  · exact hG
  · exact hp

theorem onSubscribe_out (files : Files) (games : Std.ExtTreeMap ℕ GameInfo) (user : UserContext)
    (msg : TaReplayServerSubscribe) :
    ∀ d ∈ (onSubscribe files games user msg).2, IsData d ∧ okData d = [] := by
  have hnotFound : ∀ d ∈ gameNotFound msg, IsData d ∧ okData d = [] := by
    intro d hd
    unfold gameNotFound at hd
    split at hd
    · rw [List.mem_singleton.mp hd]
      exact ⟨⟨_, _, rfl, Nat.zero_le _⟩, rfl⟩
    · cases hd
  intro d hd
  unfold onSubscribe at hd
  split at hd
  · rw [List.mem_singleton.mp hd]
    exact ⟨⟨_, _, rfl, Nat.zero_le _⟩, rfl⟩
  split at hd
  · rw [List.mem_singleton.mp hd]
    exact ⟨⟨_, _, rfl, Nat.zero_le _⟩, rfl⟩
  split at hd
  · exact hnotFound d hd
  split at hd
  · exact hnotFound d hd
  split at hd
  · exact hnotFound d hd
  · cases hd

theorem okDatas_eq_nil {cs : List Command} (h : ∀ d ∈ cs, okData d = []) : okDatas cs = [] := by
  rw [okDatas, List.flatMap_eq_nil_iff]
  exact h

theorem onSubscribe_handle {w : World} {user : UserContext} {msg : TaReplayServerSubscribe}
    (hnone : user.demoFile = none) (hseek : msg.position = 0 ∨ SeeksTo w msg) {h : Handle}
    (hdemo : (onSubscribe w.files w.server.gameInfo user msg).1.demoFile = some h)
    (hgood : h.good = true) : h.game = msg.gameId ∧ h.pos = msg.position := by
  rcases onSubscribe_cases w.files w.server.gameInfo user msg with
    heq | heq | ⟨game, f, hg, hf, hdelay, ⟨hbad, heq⟩ | ⟨hr, log, hlog, heq⟩⟩
  · rw [heq, hnone] at hdemo
    cases hdemo
  · rw [heq] at hdemo
    cases hdemo
  · rw [heq] at hdemo
    cases hdemo
    refine ⟨rfl, ?_⟩
    rcases hbad with hbad | hbad
    · rw [show f.readable = true from hgood] at hbad
      cases hbad
    · rcases hseek with hzero | hseek
      · exact hzero.symm
      · obtain ⟨log, hlog, -⟩ := hseek game hg hdelay f hf hgood
        rw [hbad] at hlog
        cases hlog
  · rw [heq] at hdemo
    cases hdemo
    refine ⟨rfl, ?_⟩
    simp only []
    rcases hseek with hzero | hseek
    · rw [hzero]
      split
      · exact Nat.zero_min _
      · rfl
    · obtain ⟨log', hlog', hlen, hle⟩ := hseek game hg hdelay f hf hr
      rw [hlog] at hlog'
      cases hlog'
      rw [if_pos hlen]
      exact Nat.min_eq_left hle

theorem UserSide.arrived_cases {sent arrived : ℕ} {user : UserContext}
    (hwf : (subscribeCommand G start).WellFormed) (h : UserSide G start sent arrived user)
    {chunk : Bytes} (hchunk : chunk <+: (subscribeCommand G start).send.drop arrived) :
    (∃ rest p, Received [subscribeCommand G start] (arrived + chunk.length)
      (user.receiver.onReadyRead chunk) rest p) ∧
    (user.arrived chunk = [] ∧ ((user.receiver.onReadyRead chunk).commands = [] →
        user.receiver.commands = []) ∨
      user.receiver.commands = [] ∧ user.arrived chunk = [subscribeCommand G start] ∧
        (user.receiver.onReadyRead chunk).commands ≠ []) := by
  obtain ⟨rest, p, hr⟩ := h.received
  clear h
  generalize subscribeCommand G start = sub at hwf hchunk hr ⊢
  have hwfs : ∀ d ∈ [sub], d.WellFormed := by
    intro d hd
    rw [List.mem_singleton.mp hd]
    exact hwf
  have hstream : [sub].flatMap Command.send = sub.send := by simp
  have hchunk' : chunk <+: ([sub].flatMap Command.send).drop arrived := by
    rw [hstream]
    exact hchunk
  obtain ⟨rest', p', hr'⟩ := received_onReadyRead hwfs hr hchunk'
  refine ⟨⟨rest', p', hr'⟩, ?_⟩
  have hsplit := hr.split
  have hsplit' := hr'.split
  unfold UserContext.arrived
  rcases hcs : user.receiver.commands with _ | ⟨a, as⟩
  · rcases hcs' : (user.receiver.onReadyRead chunk).commands with _ | ⟨b, bs⟩
    · exact Or.inl ⟨by simp, fun _ => rfl⟩
    · rw [hcs'] at hsplit'
      obtain ⟨rfl, hbs⟩ := List.cons.inj hsplit'
      have hnil := (List.append_eq_nil_iff.mp hbs.symm).1
      subst hnil
      exact Or.inr ⟨rfl, by simp, by simp⟩
  · -- the subscription arrived before
    rw [hcs] at hsplit
    obtain ⟨rfl, has⟩ := List.cons.inj hsplit
    have hnil := (List.append_eq_nil_iff.mp has.symm).1
    subst hnil
    have hlen : (user.receiver.onReadyRead chunk).commands.length ≤ 1 := by
      have hl := congrArg List.length hsplit'
      rw [List.length_append, List.length_singleton] at hl
      omega
    refine Or.inl ⟨?_, ?_⟩
    · rw [List.drop_eq_nil_iff]
      exact hlen
    · intro hempty
      have hrest : rest' = [sub] := by
        rw [hempty] at hsplit'
        exact hsplit'.symm
      have hin := hr'.inside
      rw [hrest] at hin
      have hpos := hr'.position
      have hpos0 := hr.position
      rw [hempty, List.flatMap_nil, List.length_nil] at hpos
      rw [hcs, hstream] at hpos0
      have hin1 := hin.1
      omega

theorem ConnectionOk.reply (h : ConnectionOk G s c start got rest p) {user : UserContext}
    {arrived : ℕ} {out : List Command} (hout : ∀ d ∈ out, IsData d ∧ okData d = [])
    (huser : UserSide G start (okDatas (s.world.written c.socket)).length arrived user) :
    ConnectionOk G { s with world := (s.world.setUser c.socket user).write c.socket out }
      { c with arrived } start got (rest ++ out) p := by
  have hwritten : ((s.world.setUser c.socket user).write c.socket out).written c.socket =
      s.world.written c.socket ++ out := by
    simp [World.write, World.setUser]
  have hdatas : okDatas (s.world.written c.socket ++ out) = okDatas (s.world.written c.socket) := by
    rw [okDatas_append, okDatas_eq_nil fun d hd => (hout d hd).2, List.append_nil]
  refine ⟨h.sent, h.start_lt, ?_, ?_, ?_, h.received, inside_append h.inside, h.unread, h.buffer,
    h.position, ?_, ?_⟩
  · intro d hd
    rw [hwritten] at hd
    rcases List.mem_append.mp hd with hd | hd
    · exact h.data d hd
    · exact (hout d hd).1
  · rw [hwritten, hdatas]
    exact h.stream
  · rw [hwritten, h.written, List.append_assoc]
  · rw [hwritten, hdatas]
    exact h.within
  · intro user' hu'
    simp only [World.write, World.setUser, Std.ExtTreeMap.getElem?_insert_self] at hu'
    cases hu'
    rw [hwritten, hdatas]
    exact huser

theorem onCommands_subscribe (files : Files) (games : Std.ExtTreeMap ℕ GameInfo) (user : UserContext)
    (gameId position : ℕ) :
    onCommands files games [subscribeCommand gameId position] user =
      some ((onSubscribe files games user ⟨gameId, position⟩).1,
        (onSubscribe files games user ⟨gameId, position⟩).2 ++ []) := rfl

theorem onSubscribe_receiver (files : Files) (games : Std.ExtTreeMap ℕ GameInfo) (user : UserContext)
    (msg : TaReplayServerSubscribe) : (onSubscribe files games user msg).1.receiver = user.receiver := by
  rcases onSubscribe_cases files games user msg with
    heq | heq | ⟨game, f, -, -, -, ⟨-, heq⟩ | ⟨-, log, -, heq⟩⟩
  · rw [heq]
  · rw [heq]
  · rw [heq]
  · rw [heq]

theorem UserSide.onReadyRead {w : World} {sent arrived : ℕ} {user : UserContext}
    (h : UserSide G start sent arrived user) (hwf : (subscribeCommand G start).WellFormed)
    {chunk : Bytes} (hchunk : chunk <+: (subscribeCommand G start).send.drop arrived)
    (hok : ∀ d ∈ user.arrived chunk, ∀ msg ∈ TaReplayServerSubscribe.set d.args,
      msg.position = 0 ∨ SeeksTo w msg) :
    ∃ user' out, user.onReadyRead w.files w.server.gameInfo chunk = some (user', out) ∧
      user'.receiver.warnings = [] ∧ (∀ d ∈ out, IsData d ∧ okData d = []) ∧
      UserSide G start sent (arrived + chunk.length) user' := by
  obtain ⟨⟨rest, p, hr⟩, hcases⟩ := h.arrived_cases hwf hchunk
  rcases hcases with ⟨hnone, hback⟩ | ⟨hbefore, hsub, hafter⟩
  · refine ⟨{ user with receiver := user.receiver.onReadyRead chunk }, [], ?_, hr.warnings, by simp,
      ⟨rest, p, hr⟩, fun hcmd => h.fresh (hback hcmd), h.handle⟩
    rw [UserContext.onReadyRead, hnone]
    rfl
  · obtain ⟨hfile, hsent⟩ := h.fresh hbefore
    set user1 := { user with receiver := user.receiver.onReadyRead chunk } with huser1
    set user2 := (onSubscribe w.files w.server.gameInfo user1 ⟨G, start⟩).1 with huser2
    set out := (onSubscribe w.files w.server.gameInfo user1 ⟨G, start⟩).2 with hout
    have hrec : user2.receiver = user.receiver.onReadyRead chunk := onSubscribe_receiver _ _ _ _
    refine ⟨{ user2 with bytesToWrite := user2.bytesToWrite + outSize (out ++ []) }, out ++ [],
      ?_, ?_, ?_, ?_, ?_, ?_⟩
    · rw [UserContext.onReadyRead, hsub, onCommands_subscribe]
      rfl
    · rw [hrec]
      exact hr.warnings
    · rw [List.append_nil]
      exact onSubscribe_out _ _ _ _
    · exact ⟨rest, p, by rw [hrec]; exact hr⟩
    · intro hcmd
      rw [hrec] at hcmd
      exact absurd hcmd hafter
    · intro hd hdemo hgood
      have hseek := hok (subscribeCommand G start) (by rw [hsub]; exact List.mem_singleton.mpr rfl)
        ⟨G, start⟩ rfl
      have hfile1 : user1.demoFile = none := hfile
      obtain ⟨hgame, hpos⟩ := onSubscribe_handle hfile1 hseek hdemo hgood
      exact ⟨hgame, by rw [hsent]; exact hpos⟩

theorem ConnectionOk.toServer (h : ConnectionOk G s c start got rest p) (hG : G < 2 ^ 16) {n : ℕ}
    {world : World} (hs : s.world.readyRead c.socket (System.chunkToServer c n) = some world)
    (hok : ∀ user ∈ s.world.server.users[c.socket]?, ∀ d ∈ user.arrived (System.chunkToServer c n),
      ∀ msg ∈ TaReplayServerSubscribe.set d.args, msg.position = 0 ∨ SeeksTo s.world msg) :
    world.files = s.world.files ∧ ∃ more, ConnectionOk G { s with world } { c with arrived :=
      c.arrived + (System.chunkToServer c n).length } start got (rest ++ more) p := by
  have hwf : (subscribeCommand G start).WellFormed :=
    subscribeCommand_wellFormed (by omega) h.start_lt
  have hchunk : System.chunkToServer c n <+: (subscribeCommand G start).send.drop c.arrived := by
    rw [← h.sent]
    exact List.take_prefix _ _
  unfold World.readyRead at hs
  cases hu : s.world.server.users[c.socket]? with
  | none =>
    rw [hu] at hs
    cases hs
    refine ⟨rfl, [], ?_⟩
    rw [List.append_nil]
    refine ⟨h.sent, h.start_lt, h.data, h.stream, h.written, h.received, h.inside, h.unread,
      h.buffer, h.position, h.within, ?_⟩
    intro user hu'
    rw [hu] at hu'
    cases hu'
  | some user =>
    obtain ⟨user', out, hrun, hwarn, hout, hside⟩ :=
      (h.user user hu).onReadyRead hwf hchunk (hok user hu)
    rw [hu] at hs
    simp only [hrun, Option.map_some, hwarn, if_true] at hs
    cases hs
    exact ⟨rfl, out, h.reply hout hside⟩

/-! ### Bytes reach the client -/

theorem ConnectionOk.continues_file (h : ConnectionOk G s c start got rest p) {cs : List Command}
    (hcs : cs <+: s.world.written c.socket) :
    (s.world.files.content G).take start ++ okDatas cs =
        (s.world.files.content G).take (start + (okDatas cs).length) ∧
      start + (okDatas cs).length ≤ (s.world.files.content G).length := by
  obtain ⟨more, hmore⟩ := hcs
  have hdatas : okDatas (s.world.written c.socket) = okDatas cs ++ okDatas more := by
    rw [← hmore, okDatas_append]
  have hwithin := h.within
  rw [hdatas, List.length_append] at hwithin
  have hpre : (s.world.files.content G).take start ++ okDatas cs <+: s.world.files.content G := by
    refine List.IsPrefix.trans ?_ (List.take_prefix (start + (okDatas (s.world.written c.socket)).length) _)
    rw [← h.stream, hdatas, ← List.append_assoc]
    exact List.prefix_append _ _
  have heq := List.prefix_iff_eq_take.mp hpre
  rw [List.length_append, List.length_take, Nat.min_eq_left (by omega)] at heq
  exact ⟨heq, by omega⟩

theorem ResumeOk.toClient (h : ResumeOk G s) {n : ℕ} (hs : s.toClient n = some s') : ResumeOk G s' := by
  obtain ⟨c, hc, hs⟩ := Option.bind_eq_some_iff.mp hs
  obtain ⟨client, hclient, hs⟩ := Option.bind_eq_some_iff.mp hs
  cases hs
  obtain ⟨start, got, rest, p, hok⟩ := h.connection c hc
  have hrest : ∀ d ∈ rest, IsData d := by
    intro d hd
    exact hok.data d (by rw [hok.written]; exact List.mem_append_right _ hd)
  set chunk := s.chunkToClient c n with hchunk
  have hpre : chunk <+: (rest.flatMap Command.send).drop p := by
    have hdrop : (s.stream c.socket).drop c.received = (rest.flatMap Command.send).drop p := by
      rw [System.stream, hok.written, List.flatMap_append, hok.received, ← List.drop_drop,
        List.drop_left' rfl]
    rw [hchunk, System.chunkToClient, hdrop]
    exact List.take_prefix _ _
  obtain ⟨got', rest', p', hprog⟩ := readLoop_progress (s.client.receiver.unread ++ chunk).length
    (fun d hd => (hrest d hd).wellFormed)
    (s := { s.client.receiver with unread := s.client.receiver.unread ++ chunk }) hok.inside
    (by simpa [hok.unread] using hpre) le_rfl
  have hnew : (s.client.receiver.onReadyRead chunk).commands.drop s.client.receiver.commands.length =
      got' := by
    rw [Client.onReadyRead, hprog.commands, List.drop_left' rfl]
  have hsplit : s.world.written c.socket = (got ++ got') ++ rest' := by
    rw [hok.written, hprog.split, List.append_assoc]
  have hposlt : s.client.position < 2 ^ 32 := h.position.trans_lt h.short
  obtain ⟨client', hrun, hbuf, hpos, hrec, hid⟩ := onCommands_datas got'
    (fun d hd => hrest d (by rw [hprog.split]; exact List.mem_append_left _ hd))
    { s.client with receiver := s.client.receiver.onReadyRead chunk } hposlt
  rw [TaReplayClient.onReadyRead, hnew, hrun] at hclient
  cases hclient
  have hpart : got ++ got' <+: s.world.written c.socket := by
    rw [hsplit]
    exact List.prefix_append _ _
  obtain ⟨hfile, hle⟩ := hok.continues_file hpart
  have hshort := h.short
  have hposition : client.position = start + (okDatas (got ++ got')).length := by
    have hp := hok.position
    rw [okDatas_append, List.length_append] at hle ⊢
    rw [hpos]
    simp only []
    rw [Nat.mod_eq_of_lt (by omega)]
    omega
  have hbuffer : client.replayBuffer = (s.world.files.content G).take start ++ okDatas (got ++ got') := by
    rw [hbuf, okDatas_append, ← List.append_assoc]
    show s.client.replayBuffer ++ _ = _
    rw [hok.buffer]
  have hpos' := hprog.position
  simp only [hok.unread, List.nil_append] at hpos'
  refine ⟨hid.trans h.gameId, h.short, ?_, ?_, ?_⟩
  · show client.replayBuffer = _
    rw [hbuffer, hfile, hposition]
  · show client.position ≤ _
    rw [hposition]
    exact hle
  · intro c' hc'
    cases hc'
    refine ⟨start, got ++ got', rest', p', hok.sent, hok.start_lt, hok.data, hok.stream, hsplit, ?_, ?_,
      ?_, hbuffer, hposition, hok.within, hok.user⟩
    · rw [List.flatMap_append, List.length_append]
      show c.received + chunk.length = _
      rw [hok.received]
      omega
    · show Inside rest' p' client.receiver.parser
      rw [hrec]
      exact hprog.inside
    · show client.receiver.unread = []
      rw [hrec]
      exact hprog.unread

/-! ### Whole runs -/

theorem ResumeOk.connect (h : ResumeOk G s) {socket : ℕ} (hidle : Idle s.client.receiver.parser)
    (hs : s.connect socket = some s') : ResumeOk G s' := by
  unfold System.connect at hs
  split at hs
  · rename_i hcond
    obtain ⟨hnone, hwritten, hfresh⟩ := hcond
    cases hs
    have hworld : s.world.newConnection socket = s.world.setUser socket .new := by
      simp [World.newConnection, hfresh]
    rw [hworld]
    refine ⟨h.gameId, h.short, h.buffer, h.position, ?_⟩
    intro c hc
    cases hc
    have hempty : okDatas ((s.world.setUser socket .new).written socket) = [] := by
      show okDatas (s.world.written socket) = []
      rw [hwritten]
      rfl
    refine ⟨s.client.position, [], [], 0, ?_, h.position.trans_lt h.short, ?_, ?_, hwritten, rfl,
      ⟨rfl, hidle⟩, rfl, ?_, rfl, ?_, ?_⟩
    · show s.client.sendSubscribe = _
      rw [TaReplayClient.sendSubscribe, h.gameId]
    · intro d hd
      have hd' : d ∈ s.world.written socket := hd
      rw [hwritten] at hd'
      cases hd'
    · rw [hempty]
      simp
    · show s.client.replayBuffer = _ ++ okDatas []
      rw [h.buffer, show okDatas [] = [] from rfl, List.append_nil]
      rfl
    · rw [hempty]
      exact h.position
    · intro user hu
      simp only [World.setUser, Std.ExtTreeMap.getElem?_insert_self] at hu
      cases hu
      rw [hempty]
      refine ⟨⟨[subscribeCommand G s.client.position], 0, ⟨rfl, rfl, rfl, rfl, idle_new.inside _⟩⟩,
        fun _ => ⟨rfl, rfl⟩, ?_⟩
      intro hd hdemo
      cases hdemo
  · cases hs

theorem ResumeOk.server (h : ResumeOk G s) {e : Event} (hok : Resumes G s (.server e))
    (hs : s.server e = some s') : ResumeOk G s' := by
  unfold System.server at hs
  split at hs
  · rename_i hav
    obtain ⟨world, hstep, rfl⟩ := Option.map_eq_some_iff.mp hs
    have havoid : ∀ c, s.connection = some c → e.avoids c.socket = true := by
      intro c hc
      rw [hc] at hav
      exact hav
    have hshort : (world.files.content G).length < 2 ^ 32 := by
      rcases content_step hstep G with heq | ⟨data, rfl, heq⟩
      · rw [heq]
        exact h.short
      · rw [heq]
        exact hok rfl
    refine h.setWorld (content_grows hstep G) hshort ?_
    intro c hc start got rest p hconn
    by_cases htick : e = .timerEvent
    · subst htick
      obtain ⟨more, hconn'⟩ := hconn.tick hstep
      exact ⟨got, rest ++ more, p, hconn'⟩
    · exact ⟨got, rest, p, hconn.frame (frame_step hstep (havoid c hc) htick)⟩
  · cases hs

theorem ResumeOk.restart (h : ResumeOk G s) : ResumeOk G s.restart := by
  refine h.setWorld List.prefix_rfl h.short ?_
  intro c _ start got rest p hconn
  refine ⟨got, rest, p, hconn.frame ⟨fun g => List.prefix_rfl, rfl, ?_⟩⟩
  intro user hu
  simp [Server.new] at hu

theorem ResumeOk.toServer (h : ResumeOk G s) (hG : G < 2 ^ 16) {n : ℕ}
    (hok : Resumes G s (.toServer n)) (hs : s.toServer n = some s') : ResumeOk G s' := by
  obtain ⟨c, hc, hs⟩ := Option.bind_eq_some_iff.mp hs
  obtain ⟨world, hworld, hs⟩ := Option.bind_eq_some_iff.mp hs
  cases hs
  obtain ⟨start, got, rest, p, hconn⟩ := h.connection c hc
  obtain ⟨hfiles, more, hconn'⟩ := hconn.toServer hG hworld (hok c hc)
  refine ⟨h.gameId, ?_, ?_, ?_, ?_⟩
  · rw [hfiles]
    exact h.short
  · rw [hfiles]
    exact h.buffer
  · rw [hfiles]
    exact h.position
  · intro c' hc'
    cases hc'
    exact ⟨start, got, rest ++ more, p, hconn'.sent, hconn'.start_lt, hconn'.data, hconn'.stream,
      hconn'.written, hconn'.received, hconn'.inside, hconn'.unread, hconn'.buffer, hconn'.position,
      hconn'.within, hconn'.user⟩

theorem ResumeOk.step (h : ResumeOk G s) (hG : G < 2 ^ 16) {e : SystemEvent} (hok : Resumes G s e)
    (hs : s.step e = some s') : ResumeOk G s' := by
  cases e with
  | server e => exact h.server hok hs
  | restart =>
    cases hs
    exact h.restart
  | connect socket => exact h.connect hok hs
  | toServer n => exact h.toServer hG hok hs
  | toClient n => exact h.toClient hs
  | drop =>
    cases hs
    refine ⟨h.gameId, h.short, h.buffer, h.position, ?_⟩
    intro c hc
    cases hc

theorem resumeOk_new (hG : G < 2 ^ 16) (maxBytes : ℤ) : ResumeOk G (System.new G maxBytes) where
  gameId := Nat.mod_eq_of_lt hG
  short := by
    show 0 < 2 ^ 32
    positivity
  buffer := rfl
  position := Nat.zero_le _
  connection := by
    intro c hc
    cases hc

end systemSteps

theorem replay_resumes (G : ℕ) (hG : G < 2 ^ 16) (maxBytes : ℤ) (s : System)
    (h : Runs System.step (Resumes G) (System.new G maxBytes) s) :
    s.client.replayBuffer = (s.world.files.content G).take s.client.position ∧
      s.client.position ≤ (s.world.files.content G).length := by
  have hall : ResumeOk G s :=
    Runs.invariant h (resumeOk_new hG maxBytes) fun t e t' ht he hs => ht.step hG he hs
  exact ⟨hall.buffer, hall.position⟩

/-- A file of three bytes, all of them sent, and two more after the client has lost its
connection. -/
theorem replay_resumes_after_drop : ∃ s, run (guarded System.step (Resumes 7)) (System.new 7 1000)
      [.server (.create 7 true), .server (.append 7 [1, 2, 3]), .server (.setGameInfo 7 0 "live"),
        .server .timerEvent, .connect 1, .toServer 100, .server .timerEvent, .toClient 1000, .drop,
        .server (.append 7 [4, 5]), .server .timerEvent, .connect 2, .toServer 3, .toServer 100,
        .server .timerEvent, .toClient 20, .toClient 1000] = some s ∧
    s.client.replayBuffer = [1, 2, 3, 4, 5] ∧
    s.client.replayBuffer = (s.world.files.content 7).take s.client.position ∧
      s.client.position ≤ (s.world.files.content 7).length := by
  have hrun : ((run (guarded System.step (Resumes 7)) (System.new 7 1000)
      [.server (.create 7 true), .server (.append 7 [1, 2, 3]), .server (.setGameInfo 7 0 "live"),
        .server .timerEvent, .connect 1, .toServer 100, .server .timerEvent, .toClient 1000, .drop,
        .server (.append 7 [4, 5]), .server .timerEvent, .connect 2, .toServer 3, .toServer 100,
        .server .timerEvent, .toClient 20, .toClient 1000]).map (·.client.replayBuffer)) =
      some [1, 2, 3, 4, 5] := by
    decide +kernel
  obtain ⟨s, hs, hbuf⟩ := Option.map_eq_some_iff.mp hrun
  exact ⟨s, hs, hbuf, replay_resumes 7 (by decide) 1000 s (Runs.of_run_guarded _ hs)⟩

/-- Games stay announced, with delays that are not negative. -/
def Announced : SystemEvent → Prop
  | .server (.setGameInfo _ delaySeconds state) => 0 ≤ delaySeconds ∧ isEnded state = false
  | _ => True

instance (e : SystemEvent) : Decidable (Announced e) := by
  unfold Announced
  split <;> infer_instance

/-- The client resubscribes after a restart of the server, before the first tick: the server
sends the file from its beginning again. -/
theorem restart_repeats_the_file : ¬ ∀ (G : ℕ) (maxBytes : ℤ) (s : System),
    Runs System.step (fun _ e => Announced e) (System.new G maxBytes) s →
    s.client.replayBuffer = (s.world.files.content G).take s.client.position ∧
      s.client.position ≤ (s.world.files.content G).length := by
  intro hall
  have hrun : ((run (guarded System.step fun _ e => Announced e) (System.new 7 1000)
      [.server (.create 7 true), .server (.append 7 [1, 2, 3]), .server (.setGameInfo 7 0 "live"),
        .server .timerEvent, .connect 1, .toServer 100, .server .timerEvent, .toClient 1000, .restart,
        .drop, .server (.setGameInfo 7 0 "live"), .connect 2, .toServer 100, .server .timerEvent,
        .toClient 1000]).map fun s => (s.client.position, (s.world.files.content 7).length)) =
      some (6, 3) := by
    decide +kernel
  obtain ⟨s, hs, hpos⟩ := Option.map_eq_some_iff.mp hrun
  obtain ⟨hpos, hlen⟩ := Prod.mk.inj hpos
  have h := (hall 7 1000 s (Runs.of_run_guarded _ hs)).2
  omega

end Gpgnet4TA.Tareplay
