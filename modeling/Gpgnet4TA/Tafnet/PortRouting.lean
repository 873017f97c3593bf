import Gpgnet4TA.Tafnet.GameNodeSpec

/-!
# The table of ports

One map from numbers to players serves the TCP ports, the UDP ports and the enumeration port.
An entry is made only if there is none, and removed by its number, whoever has it. Along a run
the map leads from every port of a live receiver to its player, and nowhere else, exactly if no
new receiver has the number of another one's port of the other kind, every enumeration port
can be bound, and a player with an enumeration port leaves last.
-/

namespace Gpgnet4TA.Tafnet
open Gpgnet4TA.Lib Gpgnet4TA.Tapacket

/-- The ports at which a receiver's sockets get data. -/
def GameReceiver.Has (r : GameReceiver) (port : ℕ) : Prop :=
  port = r.tcpPort ∨ port = r.udpPort ∨ (r.enumPort ≠ 0 ∧ port = r.enumPort)

namespace TafnetGameNode

inductive Event where
  | registerRemotePlayer (remotePlayerId isHostEnumPort : ℕ) (os : Listening) (listens : Bool)
  | unregisterRemotePlayer (remotePlayerId : ℕ)
  | handleTafnetMessage (action peerPlayerId : ℕ) (data : Bytes) (os : Listening)
  | handleGameData (tafnetNode : Node) (localPort : ℕ) (channelCode : Channel) (data : Bytes)
      (occupiedTcpPorts : List ℕ)

def step (g : TafnetGameNode) : Event → Option TafnetGameNode
  | .registerRemotePlayer id port os listens => some (g.registerRemotePlayer id port os listens)
  | .unregisterRemotePlayer id => some (g.unregisterRemotePlayer id)
  | .handleTafnetMessage action id data os => (g.handleTafnetMessage action id data os).map (·.1)
  | .handleGameData tafnetNode port channelCode data occupied =>
    (g.handleGameData tafnetNode port channelCode data occupied).map (·.1)

/-! ### The property -/

/-- Player `p` has the receiver `r`. -/
abbrev Live (g : TafnetGameNode) (p : ℕ) (r : GameReceiver) : Prop := g.gameReceivers[p]? = some r

/-- The ports of the live receivers lead to their players, and every entry is such a port. -/
structure Routed (g : TafnetGameNode) : Prop where
  tcp : ∀ p r, g.Live p r → g.remotePlayerIds[r.tcpPort]? = some p
  udp : ∀ p r, g.Live p r → g.remotePlayerIds[r.udpPort]? = some p
  live : ∀ port p, g.remotePlayerIds[port]? = some p →
    ∃ r, g.Live p r ∧ r.Has port

/-- What comes in at a port of a player's receiver goes to that player. -/
def Delivers (g : TafnetGameNode) : Prop :=
  ∀ p r port, g.Live p r → r.Has port →
    ∀ tafnetNode channelCode data occupied g' outs,
      g.handleGameData tafnetNode port channelCode data occupied = some (g', outs) →
        ∀ o ∈ outs, ∃ action data', o = .forwardGameData p action data'

/-! ### What the operating system promises -/

/-- A new receiver's sockets listen, and no live socket of their kind has their port, nor is it
an enumeration port. -/
structure Fresh (g : TafnetGameNode) (os : Listening) : Prop where
  tcp_pos : os.tcpPort ≠ 0
  udp_pos : os.udpPort ≠ 0
  tcp : ∀ q r, g.Live q r → os.tcpPort ≠ r.tcpPort ∧ os.tcpPort ≠ r.enumPort
  udp : ∀ q r, g.Live q r → os.udpPort ≠ r.udpPort ∧ os.udpPort ≠ r.enumPort

/-- A port that can be bound for enumeration is no other port. -/
def FreshEnum (g : TafnetGameNode) (port : ℕ) : Prop :=
  ∀ q r, g.Live q r → port ≠ r.tcpPort ∧ port ≠ r.udpPort ∧ port ≠ r.enumPort

def Promised (g : TafnetGameNode) : Event → Prop
  | .registerRemotePlayer id port os listens =>
    (g.gameReceivers[id]? = none → g.Fresh os) ∧
      (0 < port → (g.getGameReceiver id os).1.enumPort = 0 → listens = true →
        (g.getGameReceiver id os).2.FreshEnum port)
  | .handleTafnetMessage _ id _ os => g.gameReceivers[id]? = none → g.Fresh os
  | _ => True

/-! ### The condition -/

/-- No live receiver has one of the new one's numbers for the other kind of port. -/
def Apart (g : TafnetGameNode) (os : Listening) : Prop :=
  ∀ q r, g.Live q r → os.tcpPort ≠ r.udpPort ∧ os.udpPort ≠ r.tcpPort

/-- An enumeration port that is asked for is bound, if none is yet. -/
def Bound (g : TafnetGameNode) (id port : ℕ) (listens : Bool) : Prop :=
  0 < port → listens = true ∨ ∃ r, g.Live id r ∧ r.enumPort ≠ 0

/-- A player whose receiver has an enumeration port leaves last. -/
def LeavesLast (g : TafnetGameNode) (id : ℕ) : Prop :=
  ∀ r, g.Live id r → r.enumPort ≠ 0 → g.gameReceivers.size = 1

def Fits (g : TafnetGameNode) : Event → Prop
  | .registerRemotePlayer id port os listens =>
    (g.gameReceivers[id]? = none → g.Apart os) ∧ g.Bound id port listens
  | .unregisterRemotePlayer id => g.LeavesLast id
  | .handleTafnetMessage _ id _ os => g.gameReceivers[id]? = none → g.Apart os
  | .handleGameData .. => True

/-! ### What leaves the tables as they are -/

section same

variable {g h g' : TafnetGameNode}

structure SameTables (g g' : TafnetGameNode) : Prop where
  receivers : g'.gameReceivers = g.gameReceivers
  ids : g'.remotePlayerIds = g.remotePlayerIds

theorem SameTables.refl (g : TafnetGameNode) : SameTables g g := ⟨rfl, rfl⟩

theorem SameTables.trans (h1 : SameTables g h) (h2 : SameTables h g') : SameTables g g' :=
  ⟨h2.receivers.trans h1.receivers, h2.ids.trans h1.ids⟩

theorem SameTables.symm (h1 : SameTables g h) : SameTables h g := ⟨h1.receivers.symm, h1.ids.symm⟩

theorem SameTables.routed (hs : SameTables g g') (hr : g.Routed) : g'.Routed := by
  obtain ⟨h1, h2, h3⟩ := hr
  simp only [Live, ← hs.receivers, ← hs.ids] at h1 h2 h3
  exact ⟨h1, h2, h3⟩

theorem Served.tables (hs : Served g g') : SameTables g g' := ⟨hs.receivers, hs.ids⟩

end same

/-! ### A new receiver -/

section receiver

variable {g : TafnetGameNode} {id : ℕ} {os : Listening} {r : GameReceiver}

theorem getElem?_claimPort (ids : Table ℕ) (port id a : ℕ) :
    (claimPort ids port id)[a]? = if a = port ∧ ids[a]? = none then some id else ids[a]? := by
  unfold claimPort
  split
  · rename_i hc
    rw [if_neg]
    intro h
    obtain ⟨rfl, hnone⟩ := h
    rw [Table.contains_eq_false.mpr hnone] at hc
    cases hc
  · rename_i hc
    rw [Table.getElem?_insert]
    by_cases ha : a = port
    · subst ha
      rw [if_pos rfl, if_pos ⟨rfl, Table.contains_eq_false.mp (Bool.not_eq_true _ ▸ hc)⟩]
    · rw [if_neg ha, if_neg fun hno => ha hno.1]

theorem getGameReceiver_live (h : g.Live id r) : g.getGameReceiver id os = (r, g) := by
  unfold getGameReceiver
  rw [h]

theorem getGameReceiver_fst (h : g.gameReceivers[id]? = none) :
    (g.getGameReceiver id os).1 = .new os := by
  unfold getGameReceiver
  rw [h]

theorem receivers_getGameReceiver (h : g.gameReceivers[id]? = none) (q : ℕ) :
    (g.getGameReceiver id os).2.gameReceivers[q]? =
      if q = id then some (.new os) else g.gameReceivers[q]? := by
  unfold getGameReceiver
  rw [h]
  exact Table.getElem?_insert ..

/-- Only the numbers of the two ports get entries, and only if they have none. -/
theorem ids_getGameReceiver (h : g.gameReceivers[id]? = none) (a : ℕ) :
    (g.getGameReceiver id os).2.remotePlayerIds[a]? =
      if (a = os.tcpPort ∨ a = os.udpPort) ∧ g.remotePlayerIds[a]? = none then some id
      else g.remotePlayerIds[a]? := by
  unfold getGameReceiver
  rw [h]
  show (claimPort (claimPort g.remotePlayerIds os.tcpPort id) os.udpPort id)[a]? = _
  rw [getElem?_claimPort, getElem?_claimPort]
  cases hn : g.remotePlayerIds[a]? with
  | none => by_cases ht : a = os.tcpPort <;> by_cases hu : a = os.udpPort <;> simp [ht, hu]
  | some p => simp

end receiver

/-! ### What is known besides -/

/-- What the operating system's promises give, as long as the table is right. -/
structure Separate (g : TafnetGameNode) : Prop where
  enum : ∀ p r, g.Live p r → r.enumPort ≠ 0 → g.remotePlayerIds[r.enumPort]? = some p
  own : ∀ p r, g.Live p r → r.enumPort ≠ r.tcpPort ∧ r.enumPort ≠ r.udpPort
  pos : ∀ p r, g.Live p r → r.tcpPort ≠ 0 ∧ r.udpPort ≠ 0

theorem SameTables.separate {g g' : TafnetGameNode} (hs : SameTables g g') (hr : g.Separate) :
    g'.Separate := by
  obtain ⟨h1, h2, h3⟩ := hr
  simp only [Live, ← hs.receivers, ← hs.ids] at h1 h2 h3
  exact ⟨h1, h2, h3⟩

section create

variable {g : TafnetGameNode} {id : ℕ} {os : Listening}

theorem separate_getGameReceiver (hs : g.Separate) (hnone : g.gameReceivers[id]? = none)
    (hf : g.Fresh os) : (g.getGameReceiver id os).2.Separate := by
  constructor
  · intro p r hl hne
    rw [Live, receivers_getGameReceiver hnone] at hl
    split at hl
    · obtain rfl := Option.some.inj hl
      exact absurd rfl hne
    · rw [ids_getGameReceiver hnone, hs.enum p r hl hne, if_neg fun hno => by cases hno.2]
  · intro p r hl
    rw [Live, receivers_getGameReceiver hnone] at hl
    split at hl
    · obtain rfl := Option.some.inj hl
      exact ⟨hf.tcp_pos.symm, hf.udp_pos.symm⟩
    · exact hs.own p r hl
  · intro p r hl
    rw [Live, receivers_getGameReceiver hnone] at hl
    split at hl
    · obtain rfl := Option.some.inj hl
      exact ⟨hf.tcp_pos, hf.udp_pos⟩
    · exact hs.pos p r hl

/-- The new receiver has got its entries only if it is apart from the others. -/
theorem apart_of_claimed (hr : g.Routed) (hnone : g.gameReceivers[id]? = none)
    (htcp : (g.getGameReceiver id os).2.remotePlayerIds[os.tcpPort]? = some id)
    (hudp : (g.getGameReceiver id os).2.remotePlayerIds[os.udpPort]? = some id) : g.Apart os := by
  intro q r hl
  have hq : q ≠ id := by
    intro h
    obtain rfl := h
    rw [hl] at hnone
    cases hnone
  rw [ids_getGameReceiver hnone] at htcp hudp
  constructor
  · intro heq
    rw [heq, hr.udp q r hl, if_neg fun hno => by cases hno.2] at htcp
    exact hq (Option.some.inj htcp)
  · intro heq
    rw [heq, hr.tcp q r hl, if_neg fun hno => by cases hno.2] at hudp
    exact hq (Option.some.inj hudp)

theorem routed_getGameReceiver (hr : g.Routed) (hnone : g.gameReceivers[id]? = none)
    (hf : g.Fresh os) (ha : g.Apart os) : (g.getGameReceiver id os).2.Routed := by
  have hold : ∀ a q : ℕ, g.remotePlayerIds[a]? = some q →
      (g.getGameReceiver id os).2.remotePlayerIds[a]? = some q := by
    intro a q hq
    rw [ids_getGameReceiver hnone, hq, if_neg fun hno => by cases hno.2]
  -- no entry has one of the new numbers yet
  have hnew : ∀ a, a = os.tcpPort ∨ a = os.udpPort → g.remotePlayerIds[a]? = none := by
    intro a hport
    cases hq : g.remotePlayerIds[a]? with
    | none => rfl
    | some q =>
      obtain ⟨r, hl, hhas⟩ := hr.live a q hq
      have htcp := hf.tcp q r hl
      have hudp := hf.udp q r hl
      have hapart := ha q r hl
      rcases hport with rfl | rfl <;> rcases hhas with h | h | ⟨-, h⟩
      · exact absurd h htcp.1
      · exact absurd h hapart.1
      · exact absurd h htcp.2
      · exact absurd h hapart.2
      · exact absurd h hudp.1
      · exact absurd h hudp.2
  constructor
  · intro p r hl
    rw [Live, receivers_getGameReceiver hnone] at hl
    split at hl
    · rename_i hp
      obtain rfl := Option.some.inj hl
      rw [ids_getGameReceiver hnone, if_pos ⟨Or.inl rfl, hnew _ (Or.inl rfl)⟩, hp]
    · exact hold _ p (hr.tcp p r hl)
  · intro p r hl
    rw [Live, receivers_getGameReceiver hnone] at hl
    split at hl
    · rename_i hp
      obtain rfl := Option.some.inj hl
      rw [ids_getGameReceiver hnone, if_pos ⟨Or.inr rfl, hnew _ (Or.inr rfl)⟩, hp]
    · exact hold _ p (hr.udp p r hl)
  · intro port p hp
    rw [ids_getGameReceiver hnone] at hp
    split at hp
    · rename_i hport
      obtain rfl := Option.some.inj hp
      refine ⟨.new os, ?_, hport.1.imp_right Or.inl⟩
      rw [Live, receivers_getGameReceiver hnone, if_pos rfl]
    · obtain ⟨r, hl, hhas⟩ := hr.live port p hp
      refine ⟨r, ?_, hhas⟩
      rw [Live, receivers_getGameReceiver hnone, if_neg, hl]
      intro heq
      obtain rfl := heq
      rw [hl] at hnone
      cases hnone

/-- Whether a player's receiver is found or made, the table stays right exactly if a new one is
apart from the others. -/
theorem getGameReceiver_step (hr : g.Routed) (hs : g.Separate)
    (hf : g.gameReceivers[id]? = none → g.Fresh os) :
    ((g.getGameReceiver id os).2.Routed ↔ (g.gameReceivers[id]? = none → g.Apart os)) ∧
      (g.getGameReceiver id os).2.Separate := by
  cases h : g.gameReceivers[id]? with
  | some r =>
    rw [getGameReceiver_live h]
    exact ⟨⟨fun _ hno => (by cases hno), fun _ => hr⟩, hs⟩
  | none =>
    refine ⟨⟨fun hr' _ => ?_, fun ha => routed_getGameReceiver hr h (hf h) (ha rfl)⟩,
      separate_getGameReceiver hs h (hf h)⟩
    have hl : (g.getGameReceiver id os).2.Live id (.new os) := by
      rw [Live, receivers_getGameReceiver h, if_pos rfl]
    exact apart_of_claimed hr h (hr'.tcp id _ hl) (hr'.udp id _ hl)

end create

/-! ### The enumeration port -/

section enumeration

variable {g : TafnetGameNode} {id port : ℕ} {listens : Bool} {r : GameReceiver}

/-- The second half of `registerRemotePlayer`. -/
def bindEnumeration (g : TafnetGameNode) (id port : ℕ) (listens : Bool) (r : GameReceiver) :
    TafnetGameNode :=
  { g with
    gameReceivers := g.gameReceivers.insert id (r.bindEnumerationPort port listens)
    remotePlayerIds := g.remotePlayerIds.insert (r.bindEnumerationPort port listens).enumPort id }

theorem bindEnumerationPort_ports (r : GameReceiver) (port : ℕ) (listens : Bool) :
    (r.bindEnumerationPort port listens).tcpPort = r.tcpPort ∧
      (r.bindEnumerationPort port listens).udpPort = r.udpPort := by
  unfold GameReceiver.bindEnumerationPort
  split <;> exact ⟨rfl, rfl⟩

theorem bindEnumeration_again (hs : g.Separate) (hl : g.Live id r) (hport : 0 < port)
    (hne : r.enumPort ≠ 0) : SameTables g (g.bindEnumeration id port listens r) := by
  have hr : r.bindEnumerationPort port listens = r := by
    rw [GameReceiver.bindEnumerationPort, if_pos hport, if_pos hne]
  unfold bindEnumeration
  rw [hr]
  exact ⟨Table.insert_eq_self hl, Table.insert_eq_self (hs.enum id r hl hne)⟩

/-- The entry is for port 0, which nobody has. -/
theorem bindEnumeration_fails (hs : g.Separate) (hl : g.Live id r) (hport : 0 < port)
    (hzero : r.enumPort = 0) : ¬ (g.bindEnumeration id port false r).Routed := by
  intro hr
  have hself : r.bindEnumerationPort port false = r := by
    rw [GameReceiver.bindEnumerationPort, if_pos hport, if_neg (not_not.mpr hzero)]
    cases r
    rw [← hzero]
    rfl
  have hentry : (g.bindEnumeration id port false r).remotePlayerIds[0]? = some id := by
    show (g.remotePlayerIds.insert _ id)[0]? = _
    rw [Table.getElem?_insert, hself, hzero, if_pos rfl]
  obtain ⟨r', hl', hhas⟩ := hr.live 0 id hentry
  have hr' : r' = r := by
    rw [Live] at hl'
    change (g.gameReceivers.insert _ _)[id]? = _ at hl'
    rw [Table.getElem?_insert, if_pos rfl, hself] at hl'
    exact (Option.some.inj hl').symm
  subst hr'
  obtain ⟨htcp, hudp⟩ := hs.pos id r' hl
  rcases hhas with h | h | ⟨hne, -⟩
  · exact htcp h.symm
  · exact hudp h.symm
  · exact hne hzero

theorem bindEnumeration_listens (hr : g.Routed) (hs : g.Separate) (hl : g.Live id r) (hport : 0 < port)
    (hzero : r.enumPort = 0) (hf : g.FreshEnum port) :
    (g.bindEnumeration id port true r).Routed ∧ (g.bindEnumeration id port true r).Separate := by
  have hself : r.bindEnumerationPort port true = { r with enumPort := port } := by
    rw [GameReceiver.bindEnumerationPort, if_pos hport, if_neg (not_not.mpr hzero), if_pos rfl]
  have hlive : ∀ p q, (g.bindEnumeration id port true r).Live p q →
      (p = id ∧ q = { r with enumPort := port }) ∨ (p ≠ id ∧ g.Live p q) := by
    intro p q hq
    change (g.gameReceivers.insert _ _)[p]? = _ at hq
    rw [Table.getElem?_insert, hself] at hq
    split at hq
    · rename_i hp
      exact Or.inl ⟨hp, (Option.some.inj hq).symm⟩
    · rename_i hp
      exact Or.inr ⟨hp, hq⟩
  have hids : ∀ a, (g.bindEnumeration id port true r).remotePlayerIds[a]? =
      if a = port then some id else g.remotePlayerIds[a]? := by
    intro a
    show (g.remotePlayerIds.insert _ id)[a]? = _
    rw [Table.getElem?_insert, hself]
  constructor
  · constructor
    · intro p q hq
      rcases hlive p q hq with ⟨rfl, rfl⟩ | ⟨-, hq⟩
      · rw [hids, if_neg (hf p r hl).1.symm]
        exact hr.tcp p r hl
      · rw [hids, if_neg (hf p q hq).1.symm]
        exact hr.tcp p q hq
    · intro p q hq
      rcases hlive p q hq with ⟨rfl, rfl⟩ | ⟨-, hq⟩
      · rw [hids, if_neg (hf p r hl).2.1.symm]
        exact hr.udp p r hl
      · rw [hids, if_neg (hf p q hq).2.1.symm]
        exact hr.udp p q hq
    · intro a p ha
      have hid : (g.bindEnumeration id port true r).Live id { r with enumPort := port } := by
        show (g.gameReceivers.insert _ _)[id]? = _
        rw [Table.getElem?_insert, if_pos rfl, hself]
      rw [hids] at ha
      split at ha
      · obtain rfl := Option.some.inj ha
        rename_i heq
        exact ⟨_, hid, Or.inr (Or.inr ⟨hport.ne', heq⟩)⟩
      · obtain ⟨q, hq, hhas⟩ := hr.live a p ha
        by_cases hp : p = id
        · subst hp
          obtain rfl := Option.some.inj (hl.symm.trans hq)
          refine ⟨_, hid, ?_⟩
          rcases hhas with h | h | ⟨hne, -⟩
          · exact Or.inl h
          · exact Or.inr (Or.inl h)
          · exact absurd hzero hne
        · refine ⟨q, ?_, hhas⟩
          show (g.gameReceivers.insert _ _)[p]? = _
          rw [Table.getElem?_insert, if_neg hp]
          exact hq
  · constructor
    · intro p q hq hne
      rcases hlive p q hq with ⟨rfl, rfl⟩ | ⟨-, hq⟩
      · rw [hids, if_pos rfl]
      · rw [hids, if_neg (hf p q hq).2.2.symm]
        exact hs.enum p q hq hne
    · intro p q hq
      rcases hlive p q hq with ⟨rfl, rfl⟩ | ⟨-, hq⟩
      · exact ⟨(hf p r hl).1, (hf p r hl).2.1⟩
      · exact hs.own p q hq
    · intro p q hq
      rcases hlive p q hq with ⟨rfl, rfl⟩ | ⟨-, hq⟩
      · exact hs.pos p r hl
      · exact hs.pos p q hq

/-- Where the new number is no TCP or UDP port, the entries of these ports stay. -/
theorem bindEnumeration_claimed (hs : g.Separate) (hl : g.Live id r) (hzero : r.enumPort = 0)
    (hport : 0 < port) (hf : listens = true → g.FreshEnum port)
    (hr : (g.bindEnumeration id port listens r).Routed) :
    g.remotePlayerIds[r.tcpPort]? = some id ∧ g.remotePlayerIds[r.udpPort]? = some id := by
  have hnew : (g.bindEnumeration id port listens r).Live id (r.bindEnumerationPort port listens) := by
    show (g.gameReceivers.insert _ _)[id]? = _
    rw [Table.getElem?_insert, if_pos rfl]
  have hports := bindEnumerationPort_ports r port listens
  have hne : r.tcpPort ≠ (r.bindEnumerationPort port listens).enumPort ∧
      r.udpPort ≠ (r.bindEnumerationPort port listens).enumPort := by
    rw [GameReceiver.bindEnumerationPort, if_pos hport, if_neg (not_not.mpr hzero)]
    cases listens with
    | true => exact ⟨(hf rfl id r hl).1.symm, (hf rfl id r hl).2.1.symm⟩
    | false => exact hs.pos id r hl
  have htcp := hr.tcp id _ hnew
  have hudp := hr.udp id _ hnew
  change (g.remotePlayerIds.insert _ id)[_]? = _ at htcp hudp
  rw [Table.getElem?_insert, hports.1, if_neg hne.1] at htcp
  rw [Table.getElem?_insert, hports.2, if_neg hne.2] at hudp
  exact ⟨htcp, hudp⟩

end enumeration

/-! ### The steps -/

section steps

variable {g g' : TafnetGameNode} {id port : ℕ} {os : Listening} {listens : Bool}

theorem sameTables_getGameSender (g : TafnetGameNode) (id : ℕ) : SameTables g (g.getGameSender id) :=
  (onlyPorts_getGameSender g id).serves (.refl _) |>.tables

theorem sameTables_getGameReceiver (hs : SameTables g g') (id : ℕ) (os : Listening) :
    (g'.getGameReceiver id os).1 = (g.getGameReceiver id os).1 ∧
      SameTables (g.getGameReceiver id os).2 (g'.getGameReceiver id os).2 := by
  unfold getGameReceiver
  rw [hs.receivers, hs.ids]
  split
  · exact ⟨rfl, hs⟩
  · exact ⟨rfl, rfl, rfl⟩

theorem live_getGameReceiver (g : TafnetGameNode) (id : ℕ) (os : Listening) :
    (g.getGameReceiver id os).2.Live id (g.getGameReceiver id os).1 := by
  cases h : g.gameReceivers[id]? with
  | some r =>
    rw [getGameReceiver_live h]
    exact h
  | none => rw [getGameReceiver_fst h, Live, receivers_getGameReceiver h, if_pos rfl]

theorem registerRemotePlayer_tables (g : TafnetGameNode) (id port : ℕ) (os : Listening) (listens : Bool) :
    SameTables
      (if 0 < port then
        (g.getGameReceiver id os).2.bindEnumeration id port listens (g.getGameReceiver id os).1
      else (g.getGameReceiver id os).2)
      (g.registerRemotePlayer id port os listens) := by
  obtain ⟨hr, hs⟩ := sameTables_getGameReceiver (sameTables_getGameSender g id) id os
  simp only [registerRemotePlayer, hr]
  split
  · constructor
    · show Std.ExtTreeMap.insert _ _ _ = Std.ExtTreeMap.insert _ _ _
      rw [hs.receivers]
    · show Std.ExtTreeMap.insert _ _ _ = Std.ExtTreeMap.insert _ _ _
      rw [hs.ids]
  · exact hs

theorem registerRemotePlayer_step (hr : g.Routed) (hs : g.Separate)
    (hp : g.Promised (.registerRemotePlayer id port os listens)) :
    ((g.registerRemotePlayer id port os listens).Routed ↔
        g.Fits (.registerRemotePlayer id port os listens)) ∧
      ((g.registerRemotePlayer id port os listens).Routed →
        (g.registerRemotePlayer id port os listens).Separate) := by
  obtain ⟨hfresh, hfreshEnum⟩ := hp
  obtain ⟨hiff, hsep⟩ := getGameReceiver_step hr hs hfresh
  have htables := registerRemotePlayer_tables g id port os listens
  have hl := live_getGameReceiver g id os
  by_cases hport : 0 < port
  · rw [if_pos hport] at htables
    have hrouted := Iff.intro htables.symm.routed htables.routed
    by_cases hzero : (g.getGameReceiver id os).1.enumPort = 0
    · cases listens with
      | true =>
        have hfe := hfreshEnum hport hzero rfl
        constructor
        · rw [hrouted]
          constructor
          · intro hr'
            obtain ⟨htcp, hudp⟩ := bindEnumeration_claimed hsep hl hzero hport (fun _ => hfe) hr'
            refine ⟨fun hnone => ?_, fun _ => Or.inl rfl⟩
            rw [getGameReceiver_fst hnone] at htcp hudp
            exact apart_of_claimed hr hnone htcp hudp
          · intro hfits
            exact (bindEnumeration_listens (hiff.mpr hfits.1) hsep hl hport hzero hfe).1
        · intro hr'
          obtain ⟨htcp, hudp⟩ :=
            bindEnumeration_claimed hsep hl hzero hport (fun _ => hfe) (hrouted.mp hr')
          have hr1 : (g.getGameReceiver id os).2.Routed := by
            refine hiff.mpr fun hnone => ?_
            rw [getGameReceiver_fst hnone] at htcp hudp
            exact apart_of_claimed hr hnone htcp hudp
          exact htables.separate (bindEnumeration_listens hr1 hsep hl hport hzero hfe).2
      | false =>
        have hno := bindEnumeration_fails hsep hl hport hzero
        refine ⟨⟨fun hr' => absurd (hrouted.mp hr') hno, fun hfits => ?_⟩,
          fun hr' => absurd (hrouted.mp hr') hno⟩
        rcases hfits.2 hport with hf | ⟨r, hlr, hne⟩
        · cases hf
        · rw [getGameReceiver_live hlr] at hzero
          exact absurd hzero hne
    · -- a receiver with an enumeration port is not new, and keeps its port
      have hold : g.Live id (g.getGameReceiver id os).1 := by
        cases h : g.gameReceivers[id]? with
        | some r =>
          rw [getGameReceiver_live h]
          exact h
        | none =>
          rw [getGameReceiver_fst h] at hzero
          exact absurd rfl hzero
      have hagain : SameTables _ _ := @bindEnumeration_again _ id port listens _ hsep hl hport hzero
      have hsame := hagain.trans htables
      refine ⟨⟨fun hr' => ⟨hiff.mp (hsame.symm.routed hr'), fun _ => Or.inr ⟨_, hold, hzero⟩⟩,
        fun hfits => hsame.routed (hiff.mpr hfits.1)⟩, fun _ => hsame.separate hsep⟩
  · rw [if_neg hport] at htables
    exact ⟨⟨fun hr' => ⟨hiff.mp (htables.symm.routed hr'), fun hno => absurd hno hport⟩,
      fun hfits => htables.routed (hiff.mpr hfits.1)⟩, fun _ => htables.separate hsep⟩

theorem live_of_size_one {p q : ℕ} {r r' : GameReceiver} (hsize : g.gameReceivers.size = 1)
    (hp : g.Live p r) (hq : g.Live q r') : p = q := by
  rw [← Std.ExtTreeMap.length_toList] at hsize
  obtain ⟨x, hx⟩ := List.length_eq_one_iff.mp hsize
  have hmem := Table.mem_toList.mpr hp
  have hmem' := Table.mem_toList.mpr hq
  rw [hx] at hmem hmem'
  exact congrArg Prod.fst ((List.mem_singleton.mp hmem).trans (List.mem_singleton.mp hmem').symm)

theorem unregisterRemotePlayer_none (h : g.gameReceivers[id]? = none) :
    SameTables g (g.unregisterRemotePlayer id) := by
  unfold unregisterRemotePlayer killGameReceiver
  rw [h]
  exact ⟨rfl, rfl⟩

theorem receivers_unregister {r : GameReceiver} (h : g.Live id r) (q : ℕ) :
    (g.unregisterRemotePlayer id).gameReceivers[q]? = if q = id then none else g.gameReceivers[q]? := by
  unfold unregisterRemotePlayer killGameReceiver
  rw [h]
  exact Table.getElem?_erase ..

theorem ids_unregister {r : GameReceiver} (h : g.Live id r) (a : ℕ) :
    (g.unregisterRemotePlayer id).remotePlayerIds[a]? =
      if a = r.tcpPort ∨ a = r.udpPort ∨ (g.gameReceivers.size = 1 ∧ a = r.enumPort) then none
      else g.remotePlayerIds[a]? := by
  unfold unregisterRemotePlayer killGameReceiver
  rw [h]
  show (if g.gameReceivers.size = 1 then _ else _ : Table ℕ)[a]? = _
  split
  · rename_i hsize
    rw [Table.getElem?_erase, Table.getElem?_erase, Table.getElem?_erase]
    split_ifs <;> simp_all
  · rename_i hsize
    rw [Table.getElem?_erase, Table.getElem?_erase]
    split_ifs <;> simp_all

theorem ids_unregister_other {r : GameReceiver} (hr : g.Routed) (hl : g.Live id r)
    {a p : ℕ} (ha : g.remotePlayerIds[a]? = some p) (hp : p ≠ id) :
    (g.unregisterRemotePlayer id).remotePlayerIds[a]? = some p := by
  rw [ids_unregister hl, if_neg, ha]
  intro h
  obtain rfl | rfl | ⟨hsize, rfl⟩ := h
  · rw [hr.tcp id r hl] at ha
    exact hp (Option.some.inj ha).symm
  · rw [hr.udp id r hl] at ha
    exact hp (Option.some.inj ha).symm
  · obtain ⟨r', hl', -⟩ := hr.live _ p ha
    exact hp (live_of_size_one hsize hl' hl)

theorem unregisterRemotePlayer_step (hr : g.Routed) (hs : g.Separate) :
    ((g.unregisterRemotePlayer id).Routed ↔ g.LeavesLast id) ∧
      (g.unregisterRemotePlayer id).Separate := by
  cases h : g.gameReceivers[id]? with
  | none =>
    have hsame := unregisterRemotePlayer_none h
    refine ⟨⟨fun _ r hl => ?_, fun _ => hsame.routed hr⟩, hsame.separate hs⟩
    rw [Live, h] at hl
    cases hl
  | some r =>
    have hlive : ∀ p q, (g.unregisterRemotePlayer id).Live p q → p ≠ id ∧ g.Live p q := by
      intro p q hq
      rw [Live, receivers_unregister h] at hq
      split at hq
      · cases hq
      · rename_i hp
        exact ⟨hp, hq⟩
    constructor
    · constructor
      · intro hr' r' hl' hne
        obtain rfl := Option.some.inj (h.symm.trans hl')
        by_contra hsize
        obtain ⟨htcp, hudp⟩ := hs.own id r h
        have hentry : (g.unregisterRemotePlayer id).remotePlayerIds[r.enumPort]? = some id := by
          rw [ids_unregister h, if_neg, hs.enum id r h hne]
          intro hx
          obtain hno | hno | ⟨hno, -⟩ := hx
          · exact htcp hno
          · exact hudp hno
          · exact hsize hno
        obtain ⟨q, hq, -⟩ := hr'.live _ _ hentry
        exact (hlive id q hq).1 rfl
      · intro hlast
        constructor
        · intro p q hq
          obtain ⟨hp, hq⟩ := hlive p q hq
          exact ids_unregister_other hr h (hr.tcp p q hq) hp
        · intro p q hq
          obtain ⟨hp, hq⟩ := hlive p q hq
          exact ids_unregister_other hr h (hr.udp p q hq) hp
        · intro a p ha
          rw [ids_unregister h] at ha
          split at ha
          · cases ha
          · rename_i hkept
            obtain ⟨q, hq, hhas⟩ := hr.live a p ha
            have hp : p ≠ id := by
              intro heq
              obtain rfl := heq
              obtain rfl := Option.some.inj (h.symm.trans hq)
              rcases hhas with hno | hno | ⟨hne, hno⟩
              · exact hkept (Or.inl hno)
              · exact hkept (Or.inr (Or.inl hno))
              · exact hkept (Or.inr (Or.inr ⟨hlast r h hne, hno⟩))
            refine ⟨q, ?_, hhas⟩
            rw [Live, receivers_unregister h, if_neg hp, hq]
    · constructor
      · intro p q hq hne
        obtain ⟨hp, hq⟩ := hlive p q hq
        exact ids_unregister_other hr h (hs.enum p q hq hne) hp
      · exact fun p q hq => hs.own p q (hlive p q hq).2
      · exact fun p q hq => hs.pos p q (hlive p q hq).2

/-- A message from a peer makes the peer's receiver, and does nothing else to the tables. -/
theorem handleTafnetMessage_tables {action : ℕ} {data : Bytes} {outs : List GameOutput}
    (hm : g.handleTafnetMessage action id data os = some (g', outs)) :
    SameTables (g.getGameReceiver id os).2 g' :=
  (sameTables_getGameReceiver (sameTables_getGameSender g id) id os).2.trans (handleTafnetMessage_spec hm).tables

end steps

theorem step_routed (g : TafnetGameNode) (e : Event) (g' : TafnetGameNode) (hs : g.Separate)
    (hr : g.Routed) (hp : g.Promised e) (hstep : g.step e = some g') :
    (g'.Routed ↔ g.Fits e) ∧ (g'.Routed → g'.Separate) := by
  cases e with
  | registerRemotePlayer id port os listens =>
    obtain rfl := Option.some.inj hstep
    exact registerRemotePlayer_step hr hs hp
  | unregisterRemotePlayer id =>
    obtain rfl := Option.some.inj hstep
    obtain ⟨hiff, hsep⟩ := @unregisterRemotePlayer_step g id hr hs
    exact ⟨hiff, fun _ => hsep⟩
  | handleTafnetMessage action id data os =>
    obtain ⟨⟨g', outs⟩, hm, rfl⟩ := Option.map_eq_some_iff.mp hstep
    have hsame := handleTafnetMessage_tables hm
    obtain ⟨hiff, hsep⟩ := getGameReceiver_step hr hs hp
    exact ⟨⟨fun hr' => hiff.mp (hsame.symm.routed hr'), fun ha => hsame.routed (hiff.mpr ha)⟩,
      fun _ => hsame.separate hsep⟩
  | handleGameData tafnetNode port channelCode data occupied =>
    obtain ⟨⟨g', outs⟩, hm, rfl⟩ := Option.map_eq_some_iff.mp hstep
    have hsame := (handleGameData_spec hm).1.tables
    exact ⟨⟨fun _ => trivial, fun _ => hsame.routed hr⟩, fun _ => hsame.separate hs⟩

theorem delivers_of_routed {g : TafnetGameNode} (hr : g.Routed) (hs : g.Separate) : g.Delivers := by
  intro p r port hl hhas tafnetNode channelCode data occupied g' outs hm o ho
  obtain ⟨q, action, data', hq, rfl⟩ := (handleGameData_spec hm).2 o ho
  have hp : g.remotePlayerIds[port]? = some p := by
    rcases hhas with rfl | rfl | ⟨hne, rfl⟩
    · exact hr.tcp p r hl
    · exact hr.udp p r hl
    · exact hs.enum p r hl hne
  obtain rfl := Option.some.inj (hq.symm.trans hp)
  exact ⟨action, data', rfl⟩

/-! ### Runs -/

/-- Along a run in which the operating system keeps its promises the table is right, and data go
to the player at whose port they came in, exactly if every step fits. -/
theorem ports_routed_iff (packetParser : Option TAPacketParser) (occupied : List ℕ) (es : List Event)
    (hpromised : Along step Promised (.new packetParser occupied) es) :
    Always step (fun g => g.Routed ∧ g.Delivers) (.new packetParser occupied) es ↔
      Along step Fits (.new packetParser occupied) es := by
  have hempty : ∀ p r, ¬ (TafnetGameNode.new packetParser occupied).Live p r := by
    intro p r h
    exact absurd h (by simp [Live, TafnetGameNode.new])
  have hsep : (TafnetGameNode.new packetParser occupied).Separate :=
    ⟨fun p r h => absurd h (hempty p r), fun p r h => absurd h (hempty p r),
      fun p r h => absurd h (hempty p r)⟩
  have hrouted : (TafnetGameNode.new packetParser occupied).Routed := by
    refine ⟨fun p r h => absurd h (hempty p r), fun p r h => absurd h (hempty p r), fun port p h => ?_⟩
    simp [TafnetGameNode.new] at h
  refine always_iff_along (I := Separate) ?_ es hsep ⟨hrouted, delivers_of_routed hrouted hsep⟩ hpromised
  intro g e g' hs hr hp hstep
  obtain ⟨hiff, hkeep⟩ := step_routed g e g' hs hr.1 hp hstep
  exact ⟨⟨fun h => hiff.mp h.1, fun hC =>
    ⟨hiff.mpr hC, delivers_of_routed (hiff.mpr hC) (hkeep (hiff.mpr hC))⟩⟩, fun h => hkeep h.1⟩

/-! Whether steps are promised and fit can be computed. -/

theorem forall_live {g : TafnetGameNode} {P : ℕ → GameReceiver → Prop} :
    (∀ x ∈ g.gameReceivers.toList, P x.1 x.2) ↔ ∀ q r, g.Live q r → P q r :=
  ⟨fun h q r hl => h (q, r) (Table.mem_toList.mpr hl), fun h x hx => h x.1 x.2 (Table.mem_toList.mp hx)⟩

instance (g : TafnetGameNode) (os : Listening) : Decidable (g.Fresh os) :=
  decidable_of_iff (os.tcpPort ≠ 0 ∧ os.udpPort ≠ 0 ∧
      (∀ x ∈ g.gameReceivers.toList, os.tcpPort ≠ x.2.tcpPort ∧ os.tcpPort ≠ x.2.enumPort) ∧
        ∀ x ∈ g.gameReceivers.toList, os.udpPort ≠ x.2.udpPort ∧ os.udpPort ≠ x.2.enumPort)
    ⟨fun ⟨h1, h2, h3, h4⟩ => ⟨h1, h2, forall_live.mp h3, forall_live.mp h4⟩,
      fun h => ⟨h.1, h.2, forall_live.mpr h.3, forall_live.mpr h.4⟩⟩

instance (g : TafnetGameNode) (port : ℕ) : Decidable (g.FreshEnum port) :=
  decidable_of_iff (∀ x ∈ g.gameReceivers.toList,
    port ≠ x.2.tcpPort ∧ port ≠ x.2.udpPort ∧ port ≠ x.2.enumPort)
    ⟨fun h => forall_live.mp h, fun h => forall_live.mpr h⟩

instance (g : TafnetGameNode) (os : Listening) : Decidable (g.Apart os) :=
  decidable_of_iff (∀ x ∈ g.gameReceivers.toList, os.tcpPort ≠ x.2.udpPort ∧ os.udpPort ≠ x.2.tcpPort)
    ⟨fun h => forall_live.mp h, fun h => forall_live.mpr h⟩

instance (g : TafnetGameNode) (id port : ℕ) (listens : Bool) : Decidable (g.Bound id port listens) :=
  decidable_of_iff (0 < port → listens = true ∨ ∃ r ∈ g.gameReceivers[id]?, r.enumPort ≠ 0) Iff.rfl

instance (g : TafnetGameNode) (id : ℕ) : Decidable (g.LeavesLast id) :=
  decidable_of_iff (∀ r ∈ g.gameReceivers[id]?, r.enumPort ≠ 0 → g.gameReceivers.size = 1) Iff.rfl

instance (g : TafnetGameNode) : (e : Event) → Decidable (g.Promised e)
  | .registerRemotePlayer .. => inferInstanceAs (Decidable (_ ∧ _))
  | .unregisterRemotePlayer _ => isTrue trivial
  | .handleTafnetMessage .. => inferInstanceAs (Decidable (_ → _))
  | .handleGameData .. => isTrue trivial

instance (g : TafnetGameNode) : (e : Event) → Decidable (g.Fits e)
  | .registerRemotePlayer .. => inferInstanceAs (Decidable (_ ∧ _))
  | .unregisterRemotePlayer _ => inferInstanceAs (Decidable (LeavesLast _ _))
  | .handleTafnetMessage .. => inferInstanceAs (Decidable (_ → _))
  | .handleGameData .. => isTrue trivial

/-- Two players, the second one the host, who leaves when the first one has left. -/
def joinAndLeave : List Event :=
  [.registerRemotePlayer 1 0 ⟨2130706433, 5000, 6000⟩ false,
    .handleTafnetMessage ACTION_HELLO 1 [] ⟨2130706433, 5000, 6000⟩,
    .registerRemotePlayer 2 47624 ⟨2130706433, 5001, 6001⟩ true,
    .unregisterRemotePlayer 1, .unregisterRemotePlayer 2]

theorem ports_routed_joinAndLeave :
    Always step (fun g => g.Routed ∧ g.Delivers) (.new none []) joinAndLeave :=
  (ports_routed_iff none [] joinAndLeave (by decide +kernel)).mpr (by decide +kernel)

/-- The UDP port of the second player has the number of the first one's TCP port. -/
def sharedNumber : List Event :=
  [.registerRemotePlayer 1 0 ⟨2130706433, 6000, 5000⟩ false,
    .registerRemotePlayer 2 0 ⟨2130706433, 7000, 6000⟩ false]

/-- What the game sends to the second player goes to the first one. -/
theorem misrouted_port : Along step Promised (.new none []) sharedNumber ∧
    ∃ g, run step (.new none []) sharedNumber = some g ∧ ¬ g.Routed ∧ ¬ g.Delivers := by
  refine ⟨by decide +kernel, _, rfl, fun h => ?_, fun h => ?_⟩
  · have hp := h.udp 2 ⟨2130706433, 0, 7000, 6000⟩ (by decide +kernel)
    revert hp
    decide +kernel
  · have hout := h 2 ⟨2130706433, 0, 7000, 6000⟩ 6000 (by decide +kernel) (Or.inr (Or.inl rfl))
      (.new 3 true false 1000) .CHANNEL_UDP [0, 0, 0, 0, 0, 0, 0, 0] [] _ _ rfl _ (List.mem_singleton_self _)
    obtain ⟨action, data', heq⟩ := hout
    exact absurd (GameOutput.forwardGameData.inj heq).1 (by decide +kernel)

end TafnetGameNode

end Gpgnet4TA.Tafnet
