import Gpgnet4TA.Tafnet.GameNode

/-!
# What the handlers of the game's side leave as it is

Data from the game or from a peer goes through the parser, and the ports of the game may be learned
from it. The receivers, the table of ports and the queue of invited players stay.
-/

namespace Gpgnet4TA.Tafnet
open Gpgnet4TA.Lib Gpgnet4TA.Tapacket

namespace TafnetGameNode

/-- The parser is left alone, or parses something. -/
def Parses (g g' : TafnetGameNode) : Prop :=
  g'.packetParser = g.packetParser ∨ ∃ p q isLocalSource data, g.packetParser = some p ∧
    p.parseGameData isLocalSource data = some q ∧ g'.packetParser = some q

/-- Only the game's own ports may have changed, and the senders that know them. -/
structure OnlyPorts (g g' : TafnetGameNode) : Prop where
  receivers : g'.gameReceivers = g.gameReceivers
  ids : g'.remotePlayerIds = g.remotePlayerIds
  order : g'.playerInviteOrder = g.playerInviteOrder
  parser : g'.packetParser = g.packetParser

/-- The parser may have parsed something as well. -/
structure Served (g g' : TafnetGameNode) : Prop where
  receivers : g'.gameReceivers = g.gameReceivers
  ids : g'.remotePlayerIds = g.remotePlayerIds
  order : g'.playerInviteOrder = g.playerInviteOrder
  parser : Parses g g'

variable {g h g' : TafnetGameNode}

theorem OnlyPorts.refl (g : TafnetGameNode) : OnlyPorts g g := ⟨rfl, rfl, rfl, rfl⟩

theorem OnlyPorts.trans (h1 : OnlyPorts g h) (h2 : OnlyPorts h g') : OnlyPorts g g' :=
  ⟨h2.receivers.trans h1.receivers, h2.ids.trans h1.ids, h2.order.trans h1.order, h2.parser.trans h1.parser⟩

theorem OnlyPorts.serves (h1 : OnlyPorts g h) (h2 : Served h g') : Served g g' := by
  refine ⟨h2.receivers.trans h1.receivers, h2.ids.trans h1.ids, h2.order.trans h1.order, ?_⟩
  have hparser := h2.parser
  unfold Parses at hparser ⊢
  rw [h1.parser] at hparser
  exact hparser

theorem Served.refl (g : TafnetGameNode) : Served g g := ⟨rfl, rfl, rfl, .inl rfl⟩

theorem onlyPorts_getGameSender (g : TafnetGameNode) (id : ℕ) : OnlyPorts g (g.getGameSender id) := by
  unfold getGameSender
  split
  · exact .refl g
  · exact ⟨rfl, rfl, rfl, rfl⟩

theorem onlyPorts_visit (g : TafnetGameNode) (v : DPAddress × ℕ) : OnlyPorts g (g.visit v) := by
  unfold visit updateGameSenderPortsFromSpaPacket updateTcpPort updateUdpPort
  split_ifs <;> exact ⟨rfl, rfl, rfl, rfl⟩

theorem onlyPorts_visits (visits : List (DPAddress × ℕ)) (g : TafnetGameNode) :
    OnlyPorts g (visits.foldl visit g) := by
  induction visits generalizing g with
  | nil => exact .refl g
  | cons v visits ih => exact (onlyPorts_visit g v).trans (ih (g.visit v))

theorem onlyPorts_translate {playerId replyAddress : ℕ} {replyPorts : ℕ × ℕ} {data data' : Bytes}
    (hs : g.translateMessageFromLocalGame playerId data replyAddress replyPorts = some (g', data')) :
    OnlyPorts g g' := by
  obtain ⟨⟨data', visits⟩, -, hs⟩ := Option.bind_eq_some_iff.mp hs
  cases hs
  exact onlyPorts_visits visits g

theorem onlyPorts_updateGameSenderPorts {data : Bytes} {occupied : List ℕ}
    (hs : g.updateGameSenderPortsFromDplayHeader data occupied = some g') : OnlyPorts g g' := by
  obtain ⟨ok, -, hs⟩ := Option.bind_eq_some_iff.mp hs
  split at hs
  · obtain ⟨address, -, hs⟩ := Option.bind_eq_some_iff.mp hs
    cases hs
    exact ⟨rfl, rfl, rfl, rfl⟩
  · cases hs
    exact .refl g

theorem served_parse {isLocalSource : Bool} {data : Bytes} (hs : g.parse isLocalSource data = some g') :
    Served g g' := by
  unfold parse at hs
  split at hs
  · cases hs
    exact .refl g
  · rename_i p hp
    obtain ⟨q, hq, rfl⟩ := Option.map_eq_some_iff.mp hs
    exact ⟨rfl, rfl, rfl, .inr ⟨p, q, isLocalSource, data, hp, hq, rfl⟩⟩

theorem handleUdp_spec {tafnetNode : Node} {p : ℕ} {data : Bytes} {outs : List GameOutput}
    (hs : g.handleUdp tafnetNode p data = some (g', outs)) :
    Served g g' ∧ ∃ action, outs = [.forwardGameData p action data] := by
  unfold handleUdp at hs
  dsimp only at hs
  split at hs
  · cases hs
    exact ⟨.refl g, _, rfl⟩
  · rename_i parser hparser
    obtain ⟨q, hq, hs⟩ := Option.bind_eq_some_iff.mp hs
    cases hs
    exact ⟨⟨rfl, rfl, rfl, .inr ⟨parser, q, true, data, hparser, hq, rfl⟩⟩, _, rfl⟩

theorem handleTcp_spec {tafnetNode : Node} {p : ℕ} {data : Bytes} {outs : List GameOutput}
    (hs : g.handleTcp tafnetNode p data = some (g', outs)) :
    Served g g' ∧ ∃ data', outs = [.forwardGameData p ACTION_TCP_DATA data'] := by
  obtain ⟨⟨g1, data'⟩, h1, hs⟩ := Option.bind_eq_some_iff.mp hs
  obtain ⟨g2, h2, hs⟩ := Option.bind_eq_some_iff.mp hs
  cases hs
  exact ⟨(onlyPorts_translate h1).serves (served_parse h2), _, rfl⟩

theorem channel_spec {tafnetNode : Node} {p : ℕ} {data : Bytes} {outs : List GameOutput}
    (hports : OnlyPorts g h) (channelCode : Channel)
    (hs : (match channelCode with
      | .CHANNEL_UDP => h.handleUdp tafnetNode p data
      | .CHANNEL_TCP => h.handleTcp tafnetNode p data
      | .CHANNEL_ENUM => some (h, [.forwardGameData p ACTION_ENUM data])) = some (g', outs)) :
    Served g g' ∧ ∃ action data', outs = [.forwardGameData p action data'] := by
  cases channelCode with
  | CHANNEL_UDP =>
    obtain ⟨hserved, action, rfl⟩ := handleUdp_spec hs
    exact ⟨hports.serves hserved, action, data, rfl⟩
  | CHANNEL_TCP =>
    obtain ⟨hserved, data', rfl⟩ := handleTcp_spec hs
    exact ⟨hports.serves hserved, ACTION_TCP_DATA, data', rfl⟩
  | CHANNEL_ENUM =>
    cases hs
    exact ⟨hports.serves (.refl h), ACTION_ENUM, data, rfl⟩

theorem handleGameData_spec {tafnetNode : Node} {port : ℕ} {channelCode : Channel} {data : Bytes}
    {occupied : List ℕ} {outs : List GameOutput}
    (hs : g.handleGameData tafnetNode port channelCode data occupied = some (g', outs)) :
    Served g g' ∧ ∀ o ∈ outs, ∃ p action data', g.remotePlayerIds[port]? = some p ∧
      o = .forwardGameData p action data' := by
  unfold handleGameData at hs
  split at hs
  · cases hs
    exact ⟨.refl g, fun _ ho => by cases ho⟩
  · rename_i p hp
    split at hs
    · cases hs
      exact ⟨.refl g, fun _ ho => by cases ho⟩
    · have hdone : Served g g' ∧ ∃ action data', outs = [.forwardGameData p action data'] := by
        dsimp only at hs
        split at hs
        · obtain ⟨g1, h1, hs⟩ := Option.bind_eq_some_iff.mp hs
          exact channel_spec (onlyPorts_updateGameSenderPorts h1) channelCode hs
        · exact channel_spec (.refl g) channelCode hs
      obtain ⟨hserved, action, data', rfl⟩ := hdone
      exact ⟨hserved, fun o ho => ⟨p, action, data', hp, List.mem_singleton.mp ho⟩⟩

/-- A message from a peer makes the peer's sender and receiver, and does nothing else to the tables. -/
theorem handleTafnetMessage_spec {action id : ℕ} {data : Bytes} {os : Listening} {outs : List GameOutput}
    (hs : g.handleTafnetMessage action id data os = some (g', outs)) :
    Served ((g.getGameSender id).getGameReceiver id os).2 g' := by
  unfold handleTafnetMessage at hs
  generalize (g.getGameSender id).getGameReceiver id os = r at hs
  obtain ⟨r, g1⟩ := r
  dsimp only at hs ⊢
  split at hs
  · cases hs
    exact .refl _
  split at hs
  · obtain ⟨_, -, hs⟩ := Option.bind_eq_some_iff.mp hs
    cases hs
    exact ⟨rfl, rfl, rfl, .inl rfl⟩
  split at hs
  · cases hs
    exact .refl _
  split at hs
  · obtain ⟨data', -, hs⟩ := Option.bind_eq_some_iff.mp hs
    obtain ⟨g2, h2, hs⟩ := Option.bind_eq_some_iff.mp hs
    cases hs
    exact served_parse h2
  split at hs
  · obtain ⟨g2, h2, hs⟩ := Option.bind_eq_some_iff.mp hs
    cases hs
    exact served_parse h2
  · cases hs
    exact .refl _

/-! ### Players that come and go -/

theorem order_getGameReceiver (g : TafnetGameNode) (id : ℕ) (os : Listening) :
    ((g.getGameSender id).getGameReceiver id os).2.playerInviteOrder = g.playerInviteOrder := by
  unfold getGameReceiver getGameSender
  split <;> split <;> rfl

theorem parser_getGameReceiver (g : TafnetGameNode) (id : ℕ) (os : Listening) :
    ((g.getGameSender id).getGameReceiver id os).2.packetParser = g.packetParser := by
  unfold getGameReceiver getGameSender
  split <;> split <;> rfl

theorem registerRemotePlayer_keeps (g : TafnetGameNode) (id port : ℕ) (os : Listening) (listens : Bool) :
    (g.registerRemotePlayer id port os listens).playerInviteOrder = g.playerInviteOrder ∧
      (g.registerRemotePlayer id port os listens).packetParser = g.packetParser := by
  have hboth := And.intro (order_getGameReceiver g id os) (parser_getGameReceiver g id os)
  unfold registerRemotePlayer
  dsimp only
  split
  · exact hboth
  · exact hboth

theorem killGameReceiver_keeps (g : TafnetGameNode) (id : ℕ) :
    (g.killGameReceiver id).playerInviteOrder = g.playerInviteOrder ∧
      (g.killGameReceiver id).packetParser = g.packetParser := by
  unfold killGameReceiver
  split
  · exact ⟨rfl, rfl⟩
  · exact ⟨rfl, rfl⟩

end TafnetGameNode

end Gpgnet4TA.Tafnet
