import Rustchat.Hub

/-!
# Presence of connected users (`realtime/hub.rs`, `api/websocket_core.rs`)

A socket starts by adding its connection to the hub, with the presence and the username of its user, and then
writes the presence `online`. It ends by removing the connection, by clearing the two entries if it was the
last one, and by writing `offline` if it finds no other connection. These are separate steps, and the hub and
the persisted presence agree with the connections as long as none of the late ones comes in the wrong
state (`PresenceState.law_of_orderly`).

The tasks know the connections of the cluster as the answer of `global_presence_connection_count`. The
broadcasts of the status changes are left out.
-/

namespace Rustchat

namespace WsHub

variable {hub : WsHub} {u v c d : Uuid}

/-- The first part of `remove_connection`, and whether the second follows. -/
def takeConnection (hub : WsHub) (userId connectionId : Uuid) : WsHub × Bool :=
  match hub.connections.lookup userId with
  | some userConnections =>
    if (userConnections.erase connectionId).keys = [] then
      ({ hub with connections := hub.connections.erase userId }, true)
    else ({ hub with connections := hub.connections.insert userId (userConnections.erase connectionId) }, false)
  | none => (hub, false)

def clearPresence (hub : WsHub) (userId : Uuid) : WsHub :=
  { hub with presence := hub.presence.erase userId, usernames := hub.usernames.erase userId }

theorem removeConnection_eq : hub.removeConnection u c =
    if (hub.takeConnection u c).2 then (hub.takeConnection u c).1.clearPresence u else (hub.takeConnection u c).1 := by
  unfold removeConnection takeConnection clearPresence
  cases hub.connections.lookup u with
  | none => rfl
  | some userConnections =>
    by_cases h : (userConnections.erase c).keys = []
    · simp only [if_pos h, if_true]
    · simp only [if_neg h, Bool.false_eq_true, if_false]

def userConnectionCount (hub : WsHub) (userId : Uuid) : Nat :=
  ((hub.connections.lookup userId).map fun userConnections => userConnections.keys.length).getD 0

theorem userConnectionCount_pos : 0 < hub.userConnectionCount u ↔ ∃ c, hub.IsConnected u c := by
  unfold userConnectionCount IsConnected
  cases hub.connections.lookup u with
  | none => simp
  | some userConnections =>
    rw [Option.map_some, Option.getD_some, List.length_pos_iff_exists_mem]
    simp

theorem isConnected_takeConnection :
    (hub.takeConnection u c).1.IsConnected v d ↔ ¬ (v = u ∧ d = c) ∧ hub.IsConnected v d := by
  rw [← isConnected_removeConnection, removeConnection_eq]
  split
  · exact Iff.rfl
  · exact Iff.rfl

theorem takeConnection_last (h : hub.IsConnected u c) :
    (hub.takeConnection u c).2 = true ↔ ¬ ∃ d, (hub.takeConnection u c).1.IsConnected u d := by
  obtain ⟨userConnections, hl, -⟩ := h
  have htake : hub.takeConnection u c = if (userConnections.erase c).keys = [] then
      ({ hub with connections := hub.connections.erase u }, true)
    else ({ hub with connections := hub.connections.insert u (userConnections.erase c) }, false) := by
    rw [takeConnection, hl]
  rw [htake]
  by_cases hempty : (userConnections.erase c).keys = []
  · rw [if_pos hempty]
    refine iff_of_true rfl ?_
    rintro ⟨d, ucs, hucs, -⟩
    rw [Assoc.lookup_erase_eq, if_pos rfl] at hucs
    cases hucs
  · rw [if_neg hempty]
    obtain ⟨d, hd⟩ := List.exists_mem_of_ne_nil _ hempty
    refine iff_of_false nofun fun hno => hno ⟨d, _, ?_, hd⟩
    exact Assoc.lookup_insert_self

theorem takeConnection_presence : (hub.takeConnection u c).1.presence = hub.presence := by
  unfold takeConnection
  split
  · split <;> rfl
  · rfl

theorem takeConnection_usernames : (hub.takeConnection u c).1.usernames = hub.usernames := by
  unfold takeConnection
  split
  · split <;> rfl
  · rfl

end WsHub

inductive PresencePhase where
  -- `initialize_connection_state`
  | checkOnline
  -- the second part of `remove_connection`
  | clear
  -- `handle_disconnect`
  | countLocal
  | checkOffline
  | countGlobal
  -- `persist_presence_and_broadcast`
  | persist (online : Bool)
  | setPresence (online : Bool)
deriving DecidableEq

structure PresenceTask where
  userId : Uuid
  connectionId : Uuid
  phase : PresencePhase
deriving DecidableEq

structure PersistedPresence where
  presence : String
  presenceManual : Bool

structure PresenceState where
  hub : WsHub
  users : Uuid → PersistedPresence
  inProgress : Assoc Nat PresenceTask

inductive PresenceOp where
  | start (task : Nat) (userId : Uuid) (username : String) (connectionId : Uuid)
  | finish (task : Nat) (userId connectionId : Uuid)
  -- the answer for the cluster is looked at where it is asked for
  | advance (task : Nat) (globalCount : Option Nat)

namespace PresenceState

def status (online : Bool) : String := if online then "online" else "offline"

/-- Between the removal of a connection and its addition no task of it starts it. -/
def Starting (t : PresenceTask) : Prop :=
  t.phase = .checkOnline ∨ t.phase = .persist true ∨ t.phase = .setPresence true

instance (t : PresenceTask) : Decidable (Starting t) := inferInstanceAs (Decidable (_ ∨ _))

def init (users : Uuid → PersistedPresence) : PresenceState := ⟨.new, users, ∅⟩

def goOn (s : PresenceState) (task : Nat) (t : PresenceTask) (phase : PresencePhase) : PresenceState :=
  { s with inProgress := s.inProgress.insert task { t with phase } }

def done (s : PresenceState) (task : Nat) : PresenceState := { s with inProgress := s.inProgress.erase task }

def advance (s : PresenceState) (task : Nat) (globalCount : Option Nat) (t : PresenceTask) : PresenceState :=
  match t.phase with
  | .checkOnline => if (s.users t.userId).presenceManual then s.done task else s.goOn task t (.persist true)
  | .clear => { s with hub := s.hub.clearPresence t.userId }.goOn task t .countLocal
  | .countLocal => if 0 < s.hub.userConnectionCount t.userId then s.done task else s.goOn task t .checkOffline
  | .checkOffline => if (s.users t.userId).presenceManual then s.done task else s.goOn task t .countGlobal
  | .countGlobal => if globalCount = some 0 then s.goOn task t (.persist false) else s.done task
  | .persist online =>
    { s with users := Function.update s.users t.userId ⟨status online, false⟩ }.goOn task t (.setPresence online)
  | .setPresence online => { s with hub := s.hub.setPresence t.userId (status online) }.done task

def step (s : PresenceState) : PresenceOp → Option PresenceState
  | .start task userId username connectionId =>
    -- the id of the connection is new
    if (s.inProgress.lookup task).isSome ∨ s.hub.IsConnected userId connectionId then none
    else some { s with
      hub := s.hub.addConnection userId username connectionId
      inProgress := s.inProgress.insert task ⟨userId, connectionId, .checkOnline⟩ }
  | .finish task userId connectionId =>
    -- a socket ends when it has started
    if (s.inProgress.lookup task).isSome ∨ ¬ s.hub.IsConnected userId connectionId ∨
        ∃ e ∈ s.inProgress.entries, e.2.userId = userId ∧ e.2.connectionId = connectionId ∧
          Starting e.2 then none
    else
      let taken := s.hub.takeConnection userId connectionId
      some { s with
        hub := taken.1
        inProgress := s.inProgress.insert task ⟨userId, connectionId,
          if taken.2 then .clear else .countLocal⟩ }
  | .advance task globalCount => (s.inProgress.lookup task).map (s.advance task globalCount)

def Connected (s : PresenceState) (u : Uuid) : Prop := 0 < s.hub.userConnectionCount u

/-- With no operation in progress, the entries are those of the connected users, and no connected user is
persisted as automatically offline. -/
def Law (s : PresenceState) : Prop :=
  s.inProgress = ∅ → ∀ u, (u ∈ s.hub.presence ↔ s.Connected u) ∧ (u ∈ s.hub.usernames ↔ s.Connected u) ∧
    (s.Connected u → (s.users u).presenceManual = false → (s.users u).presence ≠ "offline")

def At (tasks : Assoc Nat PresenceTask) (u : Uuid) (phase : PresencePhase) : Prop :=
  Assoc.Any (fun t => t.userId = u ∧ t.phase = phase) tasks

/-- A start of the user has still to look at the persisted presence or to write it. -/
def Pending (tasks : Assoc Nat PresenceTask) (u : Uuid) : Prop :=
  At tasks u .checkOnline ∨ At tasks u (.persist true)

/-- The late steps come in the right state: the entries are cleared when the user has no connection, `offline` is
persisted when it has none or a start that writes `online` afterwards, and set in the hub when it has one or
its entries are still to be cleared. -/
def Orderly (s : PresenceState) : PresenceOp → Prop
  | .advance task _ => ∀ t, s.inProgress.lookup task = some t →
    match t.phase with
    | .clear => ¬ s.Connected t.userId
    | .persist false => s.Connected t.userId → Pending s.inProgress t.userId
    | .setPresence false => s.Connected t.userId ∨ At s.inProgress t.userId .clear
    | _ => True
  | _ => True

structure Inv (s : PresenceState) : Prop where
  starting : ∀ task t, s.inProgress.lookup task = some t → Starting t →
    s.hub.IsConnected t.userId t.connectionId
  entries : ∀ u, s.Connected u → u ∈ s.hub.presence ∧ u ∈ s.hub.usernames
  gone : ∀ u, u ∈ s.hub.presence ∨ u ∈ s.hub.usernames → s.Connected u ∨ At s.inProgress u .clear
  persisted : ∀ u, s.Connected u → (s.users u).presenceManual = false → (s.users u).presence ≠ "offline" ∨
    Pending s.inProgress u

theorem Inv.law {s : PresenceState} (h : s.Inv) : s.Law := by
  intro hidle u
  have hat : ∀ phase, ¬ At s.inProgress u phase := by
    rintro phase ⟨task, t, hl, -⟩
    rw [hidle, AList.lookup_empty] at hl
    cases hl
  refine ⟨⟨fun hp => ?_, fun hc => (h.entries u hc).1⟩, ⟨fun hp => ?_, fun hc => (h.entries u hc).2⟩,
    fun hc hm => ?_⟩
  · exact (h.gone u (.inl hp)).resolve_right (hat _)
  · exact (h.gone u (.inr hp)).resolve_right (hat _)
  · exact (h.persisted u hc hm).resolve_right fun hpending => hpending.elim (hat _) (hat _)

theorem inv_init (users : Uuid → PersistedPresence) : (init users).Inv where
  starting := by
    intro task t hl
    cases hl
  entries := by
    intro u hc
    cases hc
  gone := by
    intro u hp
    exact hp.elim (fun h => absurd h (AList.notMem_empty u)) fun h => absurd h (AList.notMem_empty u)
  persisted := by
    intro u hc
    cases hc

/-! ### Steps -/

variable {s s' : PresenceState} {task : Nat} {t : PresenceTask} {phase : PresencePhase} {u : Uuid}
    {op : PresenceOp}

theorem connected_iff : s.Connected u ↔ ∃ c, s.hub.IsConnected u c := WsHub.userConnectionCount_pos

theorem At.insert {tasks : Assoc Nat PresenceTask} {t' : PresenceTask} (h : At tasks u phase)
    (ht : tasks.lookup task = some t) (hne : t.userId = u → t.phase ≠ phase) :
    At (tasks.insert task t') u phase :=
  Assoc.Any.replace (o := some t') h ht fun hat => absurd hat.2 (hne hat.1)

theorem At.erase {tasks : Assoc Nat PresenceTask} (h : At tasks u phase) (ht : tasks.lookup task = some t)
    (hne : t.userId = u → t.phase ≠ phase) : At (tasks.erase task) u phase :=
  Assoc.Any.replace (o := none) h ht fun hat => absurd hat.2 (hne hat.1)

theorem connected_addConnection {hub : WsHub} {v c : Uuid} {name : String} :
    0 < (hub.addConnection v name c).userConnectionCount u ↔ u = v ∨ 0 < hub.userConnectionCount u := by
  simp only [WsHub.userConnectionCount_pos, WsHub.isConnected_addConnection]
  constructor
  · rintro ⟨d, ⟨rfl, -⟩ | hd⟩
    · exact .inl rfl
    · exact .inr ⟨d, hd⟩
  · rintro (rfl | ⟨d, hd⟩)
    · exact ⟨c, .inl ⟨rfl, rfl⟩⟩
    · exact ⟨d, .inr hd⟩

theorem Inv.start (h : s.Inv) {userId connectionId : Uuid} {username : String}
    (hs : s.step (.start task userId username connectionId) = some s') : s'.Inv := by
  rw [step] at hs
  split at hs
  · cases hs
  · next hnew =>
    obtain rfl := Option.some.inj hs
    have hnone : s.inProgress.lookup task = none := by
      rw [← Option.not_isSome_iff_eq_none]
      exact fun hsome => hnew (.inl hsome)
    have hat : ∀ {v phase}, At (s.inProgress.insert task ⟨userId, connectionId, .checkOnline⟩) v phase ↔
        (userId = v ∧ .checkOnline = phase) ∨ At s.inProgress v phase :=
      Assoc.any_insert_new hnone
    constructor
    · intro k t hl hst
      change (s.inProgress.insert task _).lookup k = some t at hl
      refine WsHub.isConnected_addConnection.2 ?_
      rcases Assoc.lookup_insert_cases hl with ⟨-, rfl⟩ | ⟨-, hl⟩
      · exact .inl ⟨rfl, rfl⟩
      · exact .inr (h.starting k t hl hst)
    · intro v hc
      change v ∈ s.hub.presence.insert userId "online" ∧ v ∈ s.hub.usernames.insert userId username
      rw [AList.mem_insert, AList.mem_insert]
      rcases connected_addConnection.1 hc with rfl | hc
      · exact ⟨.inl rfl, .inl rfl⟩
      · exact ⟨.inr (h.entries v hc).1, .inr (h.entries v hc).2⟩
    · intro v hp
      change v ∈ s.hub.presence.insert userId "online" ∨ v ∈ s.hub.usernames.insert userId username at hp
      rw [AList.mem_insert, AList.mem_insert] at hp
      show 0 < _ ∨ At (s.inProgress.insert task _) v .clear
      rw [hat, connected_addConnection]
      by_cases hv : v = userId
      · exact .inl (.inl hv)
      · rcases h.gone v (hp.imp (Or.resolve_left · hv) (Or.resolve_left · hv)) with hc | hclear
        · exact .inl (.inr hc)
        · exact .inr (.inr hclear)
    · intro v hc hm
      show _ ∨ At (s.inProgress.insert task _) v .checkOnline ∨
        At (s.inProgress.insert task _) v (.persist true)
      rw [hat, hat]
      rcases connected_addConnection.1 hc with rfl | hc
      · exact .inr (.inl (.inl ⟨rfl, rfl⟩))
      · rcases h.persisted v hc hm with hp | hp | hp
        · exact .inl hp
        · exact .inr (.inl (.inr hp))
        · exact .inr (.inr (.inr hp))

theorem Inv.finish (h : s.Inv) {userId connectionId : Uuid} (hs : s.step (.finish task userId connectionId) = some s') :
    s'.Inv := by
  rw [step] at hs
  split at hs
  · cases hs
  · next hguard =>
    rw [not_or, not_or, not_not] at hguard
    obtain ⟨hnone, hcon, hstarted⟩ := hguard
    obtain rfl := Option.some.inj hs
    rw [Option.not_isSome_iff_eq_none] at hnone
    have hat : ∀ {v phase p}, At (s.inProgress.insert task ⟨userId, connectionId, p⟩) v phase ↔
        (userId = v ∧ p = phase) ∨ At s.inProgress v phase :=
      Assoc.any_insert_new hnone
    have hbefore : ∀ v, 0 < (s.hub.takeConnection userId connectionId).1.userConnectionCount v →
      s.Connected v := by
      intro v hc
      obtain ⟨d, hd⟩ := WsHub.userConnectionCount_pos.1 hc
      exact connected_iff.2 ⟨d, (WsHub.isConnected_takeConnection.1 hd).2⟩
    constructor
    · intro k t hl hst
      change (s.inProgress.insert task _).lookup k = some t at hl
      rcases Assoc.lookup_insert_cases hl with ⟨-, rfl⟩ | ⟨-, hl⟩
      · exfalso
        revert hst
        cases (s.hub.takeConnection userId connectionId).2 <;> simp [Starting]
      · refine WsHub.isConnected_takeConnection.2 ⟨?_, h.starting k t hl hst⟩
        rintro ⟨hu, hc⟩
        exact hstarted ⟨⟨k, t⟩, Assoc.mem_entries_iff.2 hl, hu, hc, hst⟩
    · intro v hc
      show v ∈ (s.hub.takeConnection userId connectionId).1.presence ∧
        v ∈ (s.hub.takeConnection userId connectionId).1.usernames
      rw [WsHub.takeConnection_presence, WsHub.takeConnection_usernames]
      exact h.entries v (hbefore v hc)
    · intro v hp
      change v ∈ (s.hub.takeConnection userId connectionId).1.presence ∨
        v ∈ (s.hub.takeConnection userId connectionId).1.usernames at hp
      rw [WsHub.takeConnection_presence, WsHub.takeConnection_usernames] at hp
      show 0 < _ ∨ At (s.inProgress.insert task _) v .clear
      rw [hat, WsHub.userConnectionCount_pos]
      rcases h.gone v hp with hc | hclear
      · obtain ⟨d, hd⟩ := connected_iff.1 hc
        by_cases hv : v = userId
        · subst v
          by_cases hlast : (s.hub.takeConnection userId connectionId).2 = true
          · exact .inr (.inl ⟨rfl, if_pos hlast⟩)
          · exact .inl (not_not.1 fun hno => hlast ((WsHub.takeConnection_last hcon).2 hno))
        · exact .inl ⟨d, WsHub.isConnected_takeConnection.2 ⟨fun he => hv he.1, hd⟩⟩
      · exact .inr (.inr hclear)
    · intro v hc hm
      show _ ∨ At (s.inProgress.insert task _) v .checkOnline ∨
        At (s.inProgress.insert task _) v (.persist true)
      rw [hat, hat]
      exact (h.persisted v (hbefore v hc) hm).imp_right (Or.imp .inr .inr)

theorem starting_erase (h : s.Inv) {k : Nat} {t' : PresenceTask} (hl : (s.inProgress.erase task).lookup k = some t')
    (hst : Starting t') : s.hub.IsConnected t'.userId t'.connectionId :=
  h.starting k t' (Assoc.lookup_erase_cases hl).2 hst

theorem starting_insert (h : s.Inv) (ht : s.inProgress.lookup task = some t)
    (himp : Starting { t with phase } → Starting t) {k : Nat} {t' : PresenceTask}
    (hl : (s.inProgress.insert task { t with phase }).lookup k = some t') (hst : Starting t') :
    s.hub.IsConnected t'.userId t'.connectionId := by
  rcases Assoc.lookup_insert_cases hl with ⟨-, rfl⟩ | ⟨-, hl⟩
  · exact h.starting task t ht (himp hst)
  · exact h.starting k t' hl hst

theorem Inv.done (h : s.Inv) (ht : s.inProgress.lookup task = some t) (hclear : t.phase ≠ .clear)
    (hpending : (s.users t.userId).presenceManual = false → t.phase ≠ .checkOnline ∧ t.phase ≠ .persist true) :
    (s.done task).Inv where
  starting := fun _ _ => starting_erase h
  entries := h.entries
  gone := fun v hp => (h.gone v hp).imp_right fun hat => hat.erase ht fun _ => hclear
  persisted := fun v hc hm => (h.persisted v hc hm).imp_right (Or.imp
    (fun hat => hat.erase ht fun hu => (hpending (hu ▸ hm)).1) fun hat => hat.erase ht fun hu => (hpending (hu ▸ hm)).2)

theorem pending_insert (ht : s.inProgress.lookup task = some t)
    (hphase : t.phase = .checkOnline ∨ t.phase = .persist true → phase = .persist true)
    (h : Pending s.inProgress u) :
    Pending (s.inProgress.insert task { t with phase }) u := by
  have hkeep : ∀ p, (p = .checkOnline ∨ p = .persist true) → At s.inProgress u p →
      At (s.inProgress.insert task { t with phase }) u p ∨
        At (s.inProgress.insert task { t with phase }) u (.persist true) := by
    rintro p hp ⟨k, t', hl, hu, rfl⟩
    by_cases hk : k = task
    · subst k
      obtain rfl := Option.some.inj (ht.symm.trans hl)
      exact .inr ⟨task, _, Assoc.lookup_insert_self, hu, hphase hp⟩
    · exact .inl ⟨k, t', by rw [Assoc.lookup_insert_eq, if_neg hk, hl], hu, rfl⟩
  rcases h with h | h
  · exact hkeep _ (.inl rfl) h
  · exact .inr ((hkeep _ (.inr rfl) h).elim id id)

theorem Inv.goOn (h : s.Inv) (ht : s.inProgress.lookup task = some t) (hclear : t.phase ≠ .clear)
    (hstart : Starting { t with phase } → Starting t)
    (hphase : t.phase = .checkOnline ∨ t.phase = .persist true → phase = .persist true) :
    (s.goOn task t phase).Inv where
  starting := fun _ _ => starting_insert h ht hstart
  entries := h.entries
  gone := fun v hp => (h.gone v hp).imp_right fun hat => hat.insert ht fun _ => hclear
  persisted := fun v hc hm => (h.persisted v hc hm).imp_right (pending_insert ht hphase)

theorem Inv.clearPresence (h : s.Inv) (ht : s.inProgress.lookup task = some t) (hp : t.phase = .clear)
    (hc : ¬ s.Connected t.userId) :
    ({ s with hub := s.hub.clearPresence t.userId }.goOn task t .countLocal).Inv where
  starting := fun _ _ => starting_insert h ht (by simp [Starting])
  entries := by
    intro v hv
    have hne : v ≠ t.userId := by
      rintro rfl
      exact hc hv
    show v ∈ s.hub.presence.erase t.userId ∧ v ∈ s.hub.usernames.erase t.userId
    rw [AList.mem_erase, AList.mem_erase]
    exact ⟨⟨hne, (h.entries v hv).1⟩, hne, (h.entries v hv).2⟩
  gone := by
    intro v hv
    change v ∈ s.hub.presence.erase t.userId ∨ v ∈ s.hub.usernames.erase t.userId at hv
    rw [AList.mem_erase, AList.mem_erase] at hv
    have hne : v ≠ t.userId := hv.elim And.left And.left
    exact (h.gone v (hv.imp And.right And.right)).imp_right fun hat => hat.insert ht fun hu => absurd hu.symm hne
  persisted := fun v hv hm => (h.persisted v hv hm).imp_right (pending_insert ht (by simp [hp]))

theorem Inv.persist (h : s.Inv) (ht : s.inProgress.lookup task = some t) {online : Bool} (hp : t.phase = .persist online)
    (hc : online = false → s.Connected t.userId → Pending s.inProgress t.userId) :
    ({ s with users := Function.update s.users t.userId ⟨status online, false⟩ }.goOn task t (.setPresence online)).Inv where
  starting := fun _ _ => starting_insert h ht (by cases online <;> simp [Starting, hp])
  entries := h.entries
  gone := fun v hv => (h.gone v hv).imp_right fun hat => hat.insert ht fun _ => by rw [hp]; exact nofun
  persisted := by
    intro v hv hm
    change (Function.update s.users t.userId _ v).presenceManual = false at hm
    show (Function.update s.users t.userId _ v).presence ≠ "offline" ∨ Pending (s.inProgress.insert task _) v
    by_cases hu : v = t.userId
    · subst v
      rw [Function.update_self]
      cases online with
      | true => exact .inl (by decide)
      | false => exact .inr (pending_insert ht (by simp [hp]) (hc rfl hv))
    · rw [Function.update_of_ne hu] at hm ⊢
      refine (h.persisted v hv hm).imp_right (Or.imp (fun hat => ?_) fun hat => ?_)
      · exact hat.insert ht fun hu' => absurd hu'.symm hu
      · exact hat.insert ht fun hu' => absurd hu'.symm hu

theorem Inv.setPresence (h : s.Inv) (ht : s.inProgress.lookup task = some t) {online : Bool}
    (hp : t.phase = .setPresence online)
    (hc : online = false → s.Connected t.userId ∨ At s.inProgress t.userId .clear) :
    ({ s with hub := s.hub.setPresence t.userId (status online) }.done task).Inv where
  starting := fun _ _ => starting_erase h
  entries := by
    intro v hv
    refine ⟨?_, (h.entries v hv).2⟩
    show v ∈ s.hub.presence.insert t.userId _
    rw [AList.mem_insert]
    exact .inr (h.entries v hv).1
  gone := by
    intro v hv
    have hkeep : s.Connected v ∨ At s.inProgress v .clear := by
      change v ∈ s.hub.presence.insert t.userId _ ∨ v ∈ s.hub.usernames at hv
      rw [AList.mem_insert] at hv
      rcases hv with (rfl | hv) | hv
      · cases online with
        | true => exact .inl (connected_iff.2 ⟨_, h.starting task t ht (.inr (.inr hp))⟩)
        | false => exact hc rfl
      · exact h.gone v (.inl hv)
      · exact h.gone v (.inr hv)
    exact hkeep.imp_right fun hat => hat.erase ht fun _ => by rw [hp]; exact nofun
  persisted := fun v hv hm => (h.persisted v hv hm).imp_right (Or.imp
    (fun hat => hat.erase ht fun _ => by rw [hp]; exact nofun) fun hat => hat.erase ht fun _ => by rw [hp]; exact nofun)

theorem Inv.step (h : s.Inv) (ho : s.Orderly op) (hs : s.step op = some s') : s'.Inv := by
  cases op with
  | start task userId username connectionId => exact h.start hs
  | finish task userId connectionId => exact h.finish hs
  | advance task globalCount =>
    obtain ⟨t, ht, rfl⟩ := Option.map_eq_some_iff.1 hs
    have hlate := ho t ht
    unfold advance
    cases hp : t.phase with
    | checkOnline =>
      dsimp only
      split
      · next hm => exact h.done ht (by rw [hp]; exact nofun) fun hm' => by rw [hm] at hm'; cases hm'
      · exact h.goOn ht (by rw [hp]; exact nofun) (fun _ => .inl hp) fun _ => rfl
    | clear =>
      rw [hp] at hlate
      exact h.clearPresence ht hp hlate
    | countLocal =>
      dsimp only
      split
      · exact h.done ht (by rw [hp]; exact nofun) fun _ => by rw [hp]; exact ⟨nofun, nofun⟩
      · exact h.goOn ht (by rw [hp]; exact nofun) (by simp [Starting]) (by simp [hp])
    | checkOffline =>
      dsimp only
      split
      · exact h.done ht (by rw [hp]; exact nofun) fun _ => by rw [hp]; exact ⟨nofun, nofun⟩
      · exact h.goOn ht (by rw [hp]; exact nofun) (by simp [Starting]) (by simp [hp])
    | countGlobal =>
      dsimp only
      split
      · exact h.goOn ht (by rw [hp]; exact nofun) (by simp [Starting]) (by simp [hp])
      · exact h.done ht (by rw [hp]; exact nofun) fun _ => by rw [hp]; exact ⟨nofun, nofun⟩
    | persist online =>
      rw [hp] at hlate
      refine h.persist ht hp ?_
      rintro rfl
      exact hlate
    | setPresence online =>
      rw [hp] at hlate
      refine h.setPresence ht hp ?_
      rintro rfl
      exact hlate

/-! ### Steps in the wrong state -/

def weight : PresencePhase → Nat
  | .clear => 6
  | .countLocal => 5
  | .checkOffline => 4
  | .checkOnline | .countGlobal => 3
  | .persist _ => 2
  | .setPresence _ => 1

def work (tasks : Assoc Nat PresenceTask) : Nat := Assoc.total (fun t => weight t.phase) tasks

theorem work_advance (ht : s.inProgress.lookup task = some t) :
    work (s.advance task none t).inProgress < work s.inProgress := by
  have hdone : 0 < weight t.phase → work (s.done task).inProgress < work s.inProgress := by
    intro hw
    rw [work, work, Assoc.total_eq_of_lookup ht]
    exact Nat.lt_add_of_pos_left hw
  have hgoOn : ∀ (s' : PresenceState) phase, s'.inProgress = s.inProgress → weight phase < weight t.phase →
      work (s'.goOn task t phase).inProgress < work s.inProgress := by
    intro s' phase hs hw
    show work (s'.inProgress.insert task { t with phase }) < _
    rw [work, work, Assoc.total_insert, hs, Assoc.total_eq_of_lookup ht]
    exact Nat.add_lt_add_right hw _
  unfold advance
  cases hp : t.phase with
  | checkOnline =>
    dsimp only
    split
    · exact hdone (by rw [hp]; decide)
    · exact hgoOn s _ rfl (by rw [hp]; decide)
  | clear => exact hgoOn _ _ rfl (by rw [hp]; decide)
  | countLocal =>
    dsimp only
    split
    · exact hdone (by rw [hp]; decide)
    · exact hgoOn s _ rfl (by rw [hp]; decide)
  | checkOffline =>
    dsimp only
    split
    · exact hdone (by rw [hp]; decide)
    · exact hgoOn s _ rfl (by rw [hp]; decide)
  | countGlobal => exact hdone (by rw [hp]; decide)
  | persist online => exact hgoOn _ _ rfl (by rw [hp]; exact Nat.one_lt_two)
  | setPresence online => exact hdone (by rw [hp]; exact Nat.one_pos)

theorem exists_idle {Q : PresenceState → Prop}
    (h : ∀ s task t, s.inProgress.lookup task = some t → Q s → Q (s.advance task none t)) (hs : Q s) :
    ∃ ops s', Run.exec step s ops = some s' ∧ Q s' ∧ s'.inProgress = ∅ := by
  refine Run.exists_exec (fun s => work s.inProgress) (fun s hq hne => ?_) hs
  obtain ⟨e, he⟩ := List.exists_mem_of_ne_nil s.inProgress.entries fun hnil => hne (AList.ext hnil)
  have ht : s.inProgress.lookup e.1 = some e.2 := Assoc.mem_entries_iff.1 he
  exact ⟨[.advance e.1 none], _, Run.exec_singleton.trans (by rw [step, ht]; rfl), h s e.1 e.2 ht hq,
    work_advance ht⟩

theorem At.of_insert {tasks : Assoc Nat PresenceTask} (h : At (tasks.insert task t) u phase)
    (hne : t.userId = u → t.phase ≠ phase) : At tasks u phase := by
  rcases Assoc.Any.of_replace (o := some t) h with ⟨t', ht, hu, hp⟩ | h
  · obtain rfl := Option.some.inj ht
    exact absurd hp (hne hu)
  · exact h

theorem At.of_erase {tasks : Assoc Nat PresenceTask} (h : At (tasks.erase task) u phase) : At tasks u phase :=
  (Assoc.Any.of_replace (o := none) h).resolve_left nofun

/-- A step of a task leads to the phases before an end, and from the look at the persisted presence to the write. -/
theorem At.of_advance (h : At (s.advance task none t).inProgress u phase)
    (hphase : phase = .clear ∨ phase = .checkOnline ∨ phase = .persist true ∧ ¬ (t.userId = u ∧ t.phase = .checkOnline)) :
    At s.inProgress u phase := by
  have hgoOn : ∀ (s' : PresenceState) q, s'.inProgress = s.inProgress → (t.userId = u → q ≠ phase) →
      At (s'.goOn task t q).inProgress u phase → At s.inProgress u phase := by
    intro s' q hs hne hat
    rw [← hs]
    exact At.of_insert hat hne
  have hother : ∀ q, q ≠ .clear → q ≠ .checkOnline → q ≠ .persist true → q ≠ phase := by
    rintro q h₁ h₂ h₃ rfl
    exact hphase.elim h₁ fun hphase => hphase.elim h₂ fun hphase => h₃ hphase.1
  unfold advance at h
  cases hp : t.phase with
  | checkOnline =>
    rw [hp] at h
    dsimp only at h
    split at h
    · exact At.of_erase h
    · refine hgoOn s (.persist true) rfl (fun hu => ?_) h
      rintro rfl
      rcases hphase with hc | hc | hc
      · cases hc
      · cases hc
      · exact hc.2 ⟨hu, hp⟩
  | clear =>
    rw [hp] at h
    exact hgoOn { s with hub := s.hub.clearPresence t.userId } .countLocal rfl (fun _ => hother _ nofun nofun nofun) h
  | countLocal =>
    rw [hp] at h
    dsimp only at h
    split at h
    · exact At.of_erase h
    · exact hgoOn s .checkOffline rfl (fun _ => hother _ nofun nofun nofun) h
  | checkOffline =>
    rw [hp] at h
    dsimp only at h
    split at h
    · exact At.of_erase h
    · exact hgoOn s .countGlobal rfl (fun _ => hother _ nofun nofun nofun) h
  | countGlobal =>
    rw [hp] at h
    exact At.of_erase h
  | persist online =>
    rw [hp] at h
    exact hgoOn { s with users := Function.update s.users t.userId ⟨status online, false⟩ } (.setPresence online) rfl
      (fun _ => hother _ nofun nofun nofun) h
  | setPresence online =>
    rw [hp] at h
    exact At.of_erase h

theorem connected_advance : (s.advance task none t).Connected u ↔ s.Connected u := by
  unfold advance
  cases t.phase with
  | checkOnline => dsimp only; split <;> exact Iff.rfl
  | clear => exact Iff.rfl
  | countLocal => dsimp only; split <;> exact Iff.rfl
  | checkOffline => dsimp only; split <;> exact Iff.rfl
  | countGlobal => exact Iff.rfl
  | persist online => exact Iff.rfl
  | setPresence online => exact Iff.rfl

theorem noUsername_advance (h : u ∉ s.hub.usernames) : u ∉ (s.advance task none t).hub.usernames := by
  unfold advance
  cases t.phase with
  | checkOnline => dsimp only; split <;> exact h
  | clear =>
    show u ∉ s.hub.usernames.erase t.userId
    rw [AList.mem_erase]
    exact fun hu => h hu.2
  | countLocal => dsimp only; split <;> exact h
  | checkOffline => dsimp only; split <;> exact h
  | countGlobal => exact h
  | persist online => exact h
  | setPresence online => exact h

theorem offline_advance (ht : s.inProgress.lookup task = some t) (hp : ¬ Pending s.inProgress u)
    (h : (s.users u).presence = "offline" ∧ (s.users u).presenceManual = false) :
    ((s.advance task none t).users u).presence = "offline" ∧
    ((s.advance task none t).users u).presenceManual = false := by
  unfold advance
  cases hph : t.phase with
  | checkOnline => dsimp only; split <;> exact h
  | clear => exact h
  | countLocal => dsimp only; split <;> exact h
  | checkOffline => dsimp only; split <;> exact h
  | countGlobal => exact h
  | persist online =>
    show (Function.update s.users t.userId _ u).presence = _ ∧
      (Function.update s.users t.userId _ u).presenceManual = _
    by_cases hu : u = t.userId
    · subst u
      rw [Function.update_self]
      cases online with
      | true => exact absurd (.inr ⟨task, t, ht, rfl, hph⟩) hp
      | false => exact ⟨rfl, rfl⟩
    · rw [Function.update_of_ne hu]
      exact h
  | setPresence online => exact h

theorem presence_advance (ht : s.inProgress.lookup task = some t) (hc : ¬ At s.inProgress u .clear)
    (h : u ∈ s.hub.presence) : u ∈ (s.advance task none t).hub.presence := by
  unfold advance
  cases hph : t.phase with
  | checkOnline => dsimp only; split <;> exact h
  | clear =>
    show u ∈ s.hub.presence.erase t.userId
    rw [AList.mem_erase]
    refine ⟨?_, h⟩
    rintro rfl
    exact hc ⟨task, t, ht, rfl, hph⟩
  | countLocal => dsimp only; split <;> exact h
  | checkOffline => dsimp only; split <;> exact h
  | countGlobal => exact h
  | persist online => exact h
  | setPresence online =>
    show u ∈ s.hub.presence.insert t.userId _
    rw [AList.mem_insert]
    exact .inr h

/-- A connected user whose username entry is gone: the tasks in progress can finish without bringing it back. -/
theorem exists_lawless_of_username (hc : s.Connected u) (hu : u ∉ s.hub.usernames) :
    ∃ ops t, Run.exec step s ops = some t ∧ ¬ t.Law := by
  let Q (s : PresenceState) : Prop := s.Connected u ∧ u ∉ s.hub.usernames
  have hQ : Q s := ⟨hc, hu⟩
  obtain ⟨ops, s', hexec, ⟨hc, hu⟩, hidle⟩ :=
    exists_idle (fun s k t' _ hq => ⟨connected_advance.2 hq.1, noUsername_advance hq.2⟩) hQ
  exact ⟨ops, s', hexec, fun hlaw => hu ((hlaw hidle u).2.1.2 hc)⟩

theorem exists_lawless_of_offline (hc : s.Connected u) (hpending : ¬ Pending s.inProgress u)
    (hoff : (s.users u).presence = "offline" ∧ (s.users u).presenceManual = false) :
    ∃ ops t, Run.exec step s ops = some t ∧ ¬ t.Law := by
  let Q (s : PresenceState) : Prop := s.Connected u ∧ ¬ Pending s.inProgress u ∧
    (s.users u).presence = "offline" ∧ (s.users u).presenceManual = false
  have hQ : Q s := ⟨hc, hpending, hoff⟩
  have hkeep : ∀ s k t', s.inProgress.lookup k = some t' → Q s → Q (s.advance k none t') := by
    rintro s k t' ht' ⟨hc, hpend, hoff⟩
    refine ⟨connected_advance.2 hc, fun hpend' => hpend ?_, offline_advance ht' hpend hoff⟩
    rcases hpend' with hat | hat
    · exact .inl (hat.of_advance (.inr (.inl rfl)))
    · exact .inr (hat.of_advance (.inr (.inr ⟨rfl, fun hck => hpend (.inl ⟨k, t', ht', hck⟩)⟩)))
  obtain ⟨ops, s', hexec, ⟨hc, -, hoff, hmanual⟩, hidle⟩ := exists_idle hkeep hQ
  exact ⟨ops, s', hexec, fun hlaw => (hlaw hidle u).2.2 hc hmanual hoff⟩

theorem exists_lawless_of_presence (hc : ¬ s.Connected u) (hclear : ¬ At s.inProgress u .clear)
    (hpresence : u ∈ s.hub.presence) : ∃ ops t, Run.exec step s ops = some t ∧ ¬ t.Law := by
  let Q (s : PresenceState) : Prop := ¬ s.Connected u ∧ ¬ At s.inProgress u .clear ∧ u ∈ s.hub.presence
  have hQ : Q s := ⟨hc, hclear, hpresence⟩
  have hkeep : ∀ s k t', s.inProgress.lookup k = some t' → Q s → Q (s.advance k none t') := by
    rintro s k t' ht' ⟨hc, hclear, hpresence⟩
    exact ⟨fun hc' => hc (connected_advance.1 hc'), fun hat => hclear (hat.of_advance (.inl rfl)),
      presence_advance ht' hclear hpresence⟩
  obtain ⟨ops, s', hexec, ⟨hc, -, hpresence⟩, hidle⟩ := exists_idle hkeep hQ
  exact ⟨ops, s', hexec, fun hlaw => hc ((hlaw hidle u).1.1 hpresence)⟩

/-- After a late step in the wrong state the tasks in progress can finish without repairing it. -/
theorem exists_lawless (h : ¬ s.Orderly op) (hs : s.step op = some s') :
    ∃ ops t, Run.exec step s' ops = some t ∧ ¬ t.Law := by
  cases op with
  | start task userId username connectionId => exact absurd trivial h
  | finish task userId connectionId => exact absurd trivial h
  | advance task globalCount =>
    obtain ⟨t, ht, rfl⟩ := Option.map_eq_some_iff.1 hs
    have hlate : ¬ match t.phase with
        | .clear => ¬ s.Connected t.userId
        | .persist false => s.Connected t.userId → Pending s.inProgress t.userId
        | .setPresence false => s.Connected t.userId ∨ At s.inProgress t.userId .clear
        | _ => True := fun hlate => h fun t' ht' => Option.some.inj (ht.symm.trans ht') ▸ hlate
    rw [advance]
    cases hp : t.phase with
    | clear =>
      rw [hp] at hlate
      refine exists_lawless_of_username (u := t.userId) (not_not.1 hlate) ?_
      show t.userId ∉ s.hub.usernames.erase t.userId
      rw [AList.mem_erase]
      exact fun hu => hu.1 rfl
    | persist online =>
      cases online with
      | true =>
        rw [hp] at hlate
        exact absurd trivial hlate
      | false =>
        rw [hp] at hlate
        obtain ⟨hc, hpending⟩ := Classical.not_imp.1 hlate
        refine exists_lawless_of_offline (u := t.userId) hc (fun hpend => hpending (hpend.imp (fun hat => ?_) fun hat => ?_)) ?_
        · exact At.of_insert hat fun _ => nofun
        · exact At.of_insert hat fun _ => nofun
        · show (Function.update s.users t.userId _ t.userId).presence = _ ∧
            (Function.update s.users t.userId _ t.userId).presenceManual = _
          rw [Function.update_self]
          exact ⟨rfl, rfl⟩
    | setPresence online =>
      cases online with
      | true =>
        rw [hp] at hlate
        exact absurd trivial hlate
      | false =>
        rw [hp] at hlate
        obtain ⟨hc, hclear⟩ := not_or.1 hlate
        refine exists_lawless_of_presence (u := t.userId) hc (fun hat => hclear hat.of_erase) ?_
        show t.userId ∈ s.hub.presence.insert t.userId _
        rw [AList.mem_insert]
        exact .inl rfl
    | _ =>
      rw [hp] at hlate
      exact absurd trivial hlate

/-- In a run whose late steps all come in the right state the law holds in every state. Any other late step of a run
can be followed by a state where it does not. -/
theorem law_of_orderly (users : Uuid → PersistedPresence) (ops : List PresenceOp) :
    (Run.AllSteps step Orderly (init users) ops → Run.AllStates step Law (init users) ops) ∧
      ∀ s op s', Run.exec step (init users) ops = some s → s.step op = some s' → ¬ s.Orderly op →
        ∃ ops' t, Run.exec step s' ops' = some t ∧ ¬ t.Law := by
  refine ⟨fun ho => ?_, fun s op s' _ hs h => exists_lawless h hs⟩
  have hinv : ∀ s op s', Inv s → s.Orderly op → s.step op = some s' → Inv s' :=
    fun _ _ _ h ho hs => h.step ho hs
  exact (Run.allStates_of_allSteps hinv (inv_init users) ho).mono fun s h => h.law

/-- The last socket of user `1` ends and the next one starts before the entries are cleared. -/
def reconnectRun : List PresenceOp :=
  [.start 0 1 "ann" 11, .advance 0 none, .advance 0 none, .advance 0 none, .finish 1 1 11, .start 2 1 "ann" 12,
    .advance 2 none, .advance 2 none, .advance 2 none, .advance 1 none, .advance 1 none]

theorem reconnect_loses_entries :
    ∃ s, Run.exec step (init fun _ => ⟨"offline", false⟩) reconnectRun = some s ∧ ¬ s.Law := by
  refine ⟨_, rfl, fun hlaw => ?_⟩
  have hpresence := (hlaw rfl 1).1.2 Nat.zero_lt_one
  exact List.not_mem_nil hpresence

end PresenceState

end Rustchat
