import Gpgnet4TA.Tafnet.PortRouting

/-!
# Who may join the game next (`TafnetGameNode.cpp:504-525`, `577-629`)

Requests to join wait until the timer passes one of them to the game. While players are invited only
the first of them is admitted. Whether the game could be connected to is an argument.
-/

namespace Gpgnet4TA.Tafnet
open Gpgnet4TA.Lib Gpgnet4TA.Tapacket

namespace TafnetGameNode

def setPlayerInviteOrder (g : TafnetGameNode) (tafnetIds : List ℕ) : TafnetGameNode :=
  { g with playerInviteOrder := tafnetIds.filter g.gameSenders.contains }

/-- The first of the invited players if there is one; otherwise the first request. -/
def itToAdmit (g : TafnetGameNode) : Option (ℕ × Bytes) :=
  match g.playerInviteOrder with
  | front :: _ => g.pendingEnumRequests[front]?.map fun datas => (front, datas)
  | [] => g.pendingEnumRequests.minEntry?

/-- What becomes of the node, and the player that was admitted with what the game was given. -/
def processPendingEnumRequests (g : TafnetGameNode) (connects : Bool) :
    TafnetGameNode × Option (ℕ × Bytes) :=
  match g.itToAdmit with
  | none => (g, none)
  | some (peerId, datas) =>
    let g := g.getGameSender peerId
    if connects then
      ({ g with
        playerInviteOrder := g.playerInviteOrder.tail
        pendingEnumRequests := g.pendingEnumRequests.erase peerId }, some (peerId, datas))
    else (g, none)

def playing (g : TafnetGameNode) : Bool :=
  match g.packetParser with
  | some p => 0 < p.progressTicks
  | none => false

/-! ### The queue of invited players -/

section order

variable {g g' : TafnetGameNode}

theorem step_order {e : Event} (h : g.step e = some g') :
    (∃ id, e = .unregisterRemotePlayer id ∧ g'.playerInviteOrder = g.playerInviteOrder.filter (· ≠ id)) ∨
      ((∀ id, e ≠ .unregisterRemotePlayer id) ∧ g'.playerInviteOrder = g.playerInviteOrder) := by
  cases e with
  | registerRemotePlayer id port os listens =>
    cases h
    exact .inr ⟨fun _ => by simp, (registerRemotePlayer_keeps g id port os listens).1⟩
  | unregisterRemotePlayer id =>
    cases h
    exact .inl ⟨id, rfl, (killGameReceiver_keeps _ id).1⟩
  | handleTafnetMessage action id data os =>
    obtain ⟨⟨g1, outs⟩, h1, rfl⟩ := Option.map_eq_some_iff.mp h
    exact .inr ⟨fun _ => by simp, (handleTafnetMessage_spec h1).order.trans (order_getGameReceiver g id os)⟩
  | handleGameData tafnetNode port channelCode data occupied =>
    obtain ⟨⟨g1, outs⟩, h1, rfl⟩ := Option.map_eq_some_iff.mp h
    exact .inr ⟨fun _ => by simp, (handleGameData_spec h1).1.order⟩

theorem getGameSender_pending (g : TafnetGameNode) (id : ℕ) :
    (g.getGameSender id).pendingEnumRequests = g.pendingEnumRequests := by
  unfold getGameSender
  split <;> rfl

end order

end TafnetGameNode

open TafnetGameNode

/-- A node with its timer, and the players that it has admitted. -/
structure Hosting where
  node : TafnetGameNode
  pendingEnumRequestsTimer : Bool
  admitted : List ℕ

inductive HostEvent where
  | node (e : TafnetGameNode.Event)
  | timeout (connects : Bool)

namespace Hosting

/-- Nobody has been admitted since the players were invited. -/
def inviting (g : TafnetGameNode) (timer : Bool) (tafnetIds : List ℕ) : Hosting :=
  ⟨g.setPlayerInviteOrder tafnetIds, timer, []⟩

/-- The timer has stopped once the game is being played. -/
def step (h : Hosting) : HostEvent → Option Hosting
  | .node e => (h.node.step e).map fun g => { h with node := g }
  | .timeout connects =>
    if h.pendingEnumRequestsTimer then
      let (g, admission) := h.node.processPendingEnumRequests connects
      some ⟨g, !g.playing, h.admitted ++ (admission.map (·.1)).toList⟩
    else none

/-- The run unregisters the player at a time when it has not been admitted. -/
def UnregisteredBeforeTurn (h : Hosting) (events : List HostEvent) (id : ℕ) : Prop :=
  ∃ pre post s, events = pre ++ .node (.unregisterRemotePlayer id) :: post ∧
    run step h pre = some s ∧ id ∉ s.admitted

/-- There are invited players whenever something happens. -/
def Inviting (h : Hosting) (events : List HostEvent) : Prop :=
  Along step (fun s _ => s.node.playerInviteOrder ≠ []) h events

instance (h : Hosting) (events : List HostEvent) : Decidable (h.Inviting events) :=
  inferInstanceAs (Decidable (Along step _ h events))

/-- An admission takes one entry of the queue and one request; a failed attempt takes nothing. -/
def AttemptExact (s s' : Hosting) (connects : Bool) : Prop :=
  (∃ p data, connects = true ∧ s'.admitted = s.admitted ++ [p] ∧
    s.node.playerInviteOrder = p :: s'.node.playerInviteOrder ∧
    s.node.pendingEnumRequests[p]? = some data ∧
    s'.node.pendingEnumRequests = s.node.pendingEnumRequests.erase p) ∨
  (s'.admitted = s.admitted ∧ s'.node.playerInviteOrder = s.node.playerInviteOrder ∧
    s'.node.pendingEnumRequests = s.node.pendingEnumRequests)

section runs

variable {h h' : Hosting} {events : List HostEvent}

theorem attempt_exact {connects : Bool} (hinvited : h.node.playerInviteOrder ≠ [])
    (hstep : h.step (.timeout connects) = some h') : AttemptExact h h' connects := by
  unfold step at hstep
  dsimp only at hstep
  split at hstep
  · obtain rfl := Option.some.inj hstep
    obtain ⟨front, order, horder⟩ := List.exists_cons_of_ne_nil hinvited
    unfold AttemptExact processPendingEnumRequests itToAdmit
    rw [horder]
    dsimp only
    cases hpending : h.node.pendingEnumRequests[front]? with
    | none => exact .inr ⟨List.append_nil _, horder, rfl⟩
    | some datas =>
      rw [Option.map_some]
      dsimp only
      have horder' : (h.node.getGameSender front).playerInviteOrder = front :: order :=
        (onlyPorts_getGameSender h.node front).order.trans horder
      split
      · rename_i hconnects
        refine .inl ⟨front, datas, hconnects, rfl, ?_, hpending, ?_⟩
        · rw [horder', List.tail_cons]
        · rw [getGameSender_pending]
      · exact .inr ⟨List.append_nil _, horder', getGameSender_pending h.node front⟩
  · cases hstep

theorem step_cases {e : HostEvent} (hinvited : h.node.playerInviteOrder ≠ []) (hstep : h.step e = some h') :
    (∃ id, e = .node (.unregisterRemotePlayer id) ∧ h'.admitted = h.admitted ∧
        h'.node.playerInviteOrder = h.node.playerInviteOrder.filter (· ≠ id)) ∨
      ((∀ id, e ≠ .node (.unregisterRemotePlayer id)) ∧
        ((∃ p, h'.admitted = h.admitted ++ [p] ∧ h.node.playerInviteOrder = p :: h'.node.playerInviteOrder) ∨
          (h'.admitted = h.admitted ∧ h'.node.playerInviteOrder = h.node.playerInviteOrder))) := by
  cases e with
  | node e =>
    obtain ⟨g, hg, rfl⟩ := Option.map_eq_some_iff.mp hstep
    obtain ⟨id, rfl, horder⟩ | ⟨hother, horder⟩ := step_order hg
    · exact .inl ⟨id, rfl, rfl, horder⟩
    · exact .inr ⟨fun id heq => hother id (HostEvent.node.inj heq), .inr ⟨rfl, horder⟩⟩
  | timeout connects =>
    refine .inr ⟨nofun, ?_⟩
    obtain ⟨p, -, -, hadmitted, horder, -, -⟩ | ⟨hadmitted, horder, -⟩ := attempt_exact hinvited hstep
    · exact .inl ⟨p, hadmitted, horder⟩
    · exact .inr ⟨hadmitted, horder⟩

theorem step_admitted {e : HostEvent} (hstep : h.step e = some h') {p : ℕ} (hp : p ∈ h.admitted) :
    p ∈ h'.admitted := by
  cases e with
  | node e =>
    obtain ⟨g, -, rfl⟩ := Option.map_eq_some_iff.mp hstep
    exact hp
  | timeout connects =>
    unfold step at hstep
    dsimp only at hstep
    split at hstep
    · obtain rfl := Option.some.inj hstep
      exact List.mem_append_left _ hp
    · cases hstep

theorem run_admitted (hrun : run step h events = some h') {p : ℕ} (hp : p ∈ h.admitted) : p ∈ h'.admitted := by
  induction events generalizing h with
  | nil =>
    obtain rfl := Option.some.inj hrun
    exact hp
  | cons e events ih =>
    obtain ⟨h1, hstep, hrest⟩ := Option.bind_eq_some_iff.mp hrun
    exact ih hrest (step_admitted hstep hp)

theorem unregisteredBeforeTurn_nil (id : ℕ) : ¬ h.UnregisteredBeforeTurn [] id := by
  intro hleft
  obtain ⟨pre, post, s, heq, -, -⟩ := hleft
  cases pre <;> cases heq

theorem unregisteredBeforeTurn_cons {e : HostEvent} (hstep : h.step e = some h') (id : ℕ) :
    h.UnregisteredBeforeTurn (e :: events) id ↔
      (e = .node (.unregisterRemotePlayer id) ∧ id ∉ h.admitted) ∨ h'.UnregisteredBeforeTurn events id := by
  constructor
  · intro hleft
    obtain ⟨pre, post, s, heq, hrun, hnot⟩ := hleft
    cases pre with
    | nil =>
      obtain ⟨rfl, -⟩ := List.cons.inj heq
      obtain rfl := Option.some.inj hrun
      exact .inl ⟨rfl, hnot⟩
    | cons e' pre =>
      obtain ⟨rfl, hrest⟩ := List.cons.inj heq
      rw [run, hstep] at hrun
      exact .inr ⟨pre, post, s, hrest, hrun, hnot⟩
  · intro hor
    obtain ⟨rfl, hnot⟩ | ⟨pre, post, s, rfl, hrun, hnot⟩ := hor
    · exact ⟨[], events, h, rfl, rfl, hnot⟩
    · refine ⟨e :: pre, post, s, rfl, ?_, hnot⟩
      rw [run, hstep]
      exact hrun

open Classical in
/-- The queue as it was, without those who have left it: first the players admitted, then those
who still wait. -/
theorem admitted_append_order (hinvited : h.Inviting events) (hrun : run step h events = some h')
    (hnodup : h.node.playerInviteOrder.Nodup) (hapart : ∀ p ∈ h.node.playerInviteOrder, p ∉ h.admitted) :
    h'.admitted ++ h'.node.playerInviteOrder =
      h.admitted ++ h.node.playerInviteOrder.filter fun p => ¬ h.UnregisteredBeforeTurn events p := by
  induction events generalizing h with
  | nil =>
    obtain rfl := Option.some.inj hrun
    rw [List.filter_eq_self.mpr fun p _ => decide_eq_true (unregisteredBeforeTurn_nil p)]
  | cons e events ih =>
    obtain ⟨h1, hstep, hrest⟩ := Option.bind_eq_some_iff.mp hrun
    obtain ⟨hfirst, hlater⟩ := hinvited h1 hstep
    simp only [unregisteredBeforeTurn_cons hstep]
    obtain ⟨id, rfl, hadmitted, horder⟩ | ⟨hother, ⟨p, hadmitted, horder⟩ | ⟨hadmitted, horder⟩⟩ :=
      step_cases hfirst hstep
    · rw [ih hlater hrest, hadmitted, horder, List.filter_filter]
      · congr 1
        refine List.filter_congr fun p hp => ?_
        have hnot := hapart p hp
        by_cases heq : p = id
        · subst heq
          simp [hnot]
        · simp [heq, Ne.symm heq]
      · rw [horder]
        exact hnodup.filter _
      · rw [horder, hadmitted]
        exact fun p hp => hapart p (List.mem_of_mem_filter hp)
    · rw [horder] at hnodup hapart ⊢
      obtain ⟨hnotin, hnodup⟩ := List.nodup_cons.mp hnodup
      rw [ih hlater hrest hnodup, hadmitted, List.append_assoc]
      · have hp : ¬ h1.UnregisteredBeforeTurn events p := by
          intro hleft
          obtain ⟨pre, post, s, -, hrun, hnot⟩ := hleft
          exact hnot (run_admitted hrun (by rw [hadmitted]; exact List.mem_append_right _ (List.mem_singleton.mpr rfl)))
        rw [List.filter_cons_of_pos (by simp [hother, hp]), List.singleton_append]
        congr 2
        refine List.filter_congr fun q _ => ?_
        simp [hother]
      · intro q hq
        rw [hadmitted, List.mem_append, List.mem_singleton, not_or]
        exact ⟨hapart q (List.mem_cons_of_mem _ hq), fun heq => hnotin (heq ▸ hq)⟩
    · rw [ih hlater hrest (horder ▸ hnodup) (by rw [horder, hadmitted]; exact hapart), hadmitted, horder]
      congr 1
      refine List.filter_congr fun p hp => ?_
      simp [hother]

open Classical in
/-- Until the queue is empty, the players are admitted in the order in which they were invited;
those whom the node did not know, and those unregistered before their turn, are left out. -/
theorem invite_order (g : TafnetGameNode) (timer : Bool) {tafnetIds : List ℕ} (hnodup : tafnetIds.Nodup)
    (hinvited : (inviting g timer tafnetIds).Inviting events)
    (hrun : run step (inviting g timer tafnetIds) events = some h') :
    h'.admitted <+: (tafnetIds.filter fun id =>
        g.gameSenders.contains id ∧ ¬ (inviting g timer tafnetIds).UnregisteredBeforeTurn events id) ∧
      (∀ id ∈ h'.admitted, id ∈ tafnetIds) ∧
      ∀ pre post connects s s', events = pre ++ .timeout connects :: post →
        run step (inviting g timer tafnetIds) pre = some s → s.step (.timeout connects) = some s' →
          AttemptExact s s' connects := by
  have hwhole := admitted_append_order hinvited hrun (hnodup.filter _) fun _ _ => List.not_mem_nil
  have hfront : h'.admitted <+: (tafnetIds.filter fun id =>
      g.gameSenders.contains id ∧ ¬ (inviting g timer tafnetIds).UnregisteredBeforeTurn events id) := by
    refine ⟨h'.node.playerInviteOrder, hwhole.trans ?_⟩
    rw [show (inviting g timer tafnetIds).admitted = [] from rfl, List.nil_append,
      show (inviting g timer tafnetIds).node.playerInviteOrder = tafnetIds.filter g.gameSenders.contains from rfl,
      List.filter_filter]
    refine List.filter_congr fun id _ => ?_
    rw [Bool.decide_and, Bool.and_comm, Bool.decide_eq_true]
  refine ⟨hfront, fun id hid => List.mem_of_mem_filter (hfront.subset hid), ?_⟩
  intro pre post connects s s' hevents hpre hstep
  subst hevents
  exact attempt_exact (hinvited.at hpre hstep) hstep

end runs

/-- A node that knows the players 2 and 3. -/
def twoGuests : TafnetGameNode :=
  ((TafnetGameNode.new none []).registerRemotePlayer 2 0 ⟨2130706433, 5000, 6000⟩ false).registerRemotePlayer 3 0
    ⟨2130706433, 5001, 6001⟩ false

/-- The second of the invited players knocks first; the first attempt for the other one fails. -/
def knocking : List HostEvent :=
  [.node (.handleTafnetMessage ACTION_ENUM 2 [] ⟨2130706433, 5000, 6000⟩), .timeout true,
    .node (.handleTafnetMessage ACTION_ENUM 3 [] ⟨2130706433, 5001, 6001⟩), .timeout false, .timeout true]

open Classical in
theorem invite_order_knocking : ∃ h', run step (inviting twoGuests true [3, 9, 2]) knocking = some h' ∧
    h'.admitted = [3] ∧
    h'.admitted <+: ([3, 9, 2].filter fun id => twoGuests.gameSenders.contains id ∧
      ¬ (inviting twoGuests true [3, 9, 2]).UnregisteredBeforeTurn knocking id) := by
  have hplay : (run step (inviting twoGuests true [3, 9, 2]) knocking).map (·.admitted) = some [3] := by
    decide +kernel
  obtain ⟨h', hrun, hadmitted⟩ := Option.map_eq_some_iff.mp hplay
  have hinvited : (inviting twoGuests true [3, 9, 2]).Inviting knocking := by decide +kernel
  have hnodup : [3, 9, 2].Nodup := by decide
  exact ⟨h', hrun, hadmitted, (invite_order twoGuests true hnodup hinvited hrun).1⟩

end Hosting

end Gpgnet4TA.Tafnet
