import Rustchat.Hub
import Rustchat.PresenceRegistry

/-!
# The life of a v4 socket (`api/v4/websocket.rs`, `realtime/websocket_actor.rs`)

`run_connection` adds its connection to the hub, registers it and spawns a heartbeat task, and its cleanup
undoes this in the opposite order. In between it sends the hello message, and leaves at once if the actor does
not take it. When it has returned, its connection, its registration and its heartbeat task are gone if hello was
taken and the commands of the cleanup reach Redis after those of the heartbeat (`SocketState.released_of_orderly`).

The tasks of other sockets act on the hub and the registry in between. What the handlers of the messages do
with subscriptions and presence are such operations of the hub.
-/

namespace Rustchat

-- `COMMAND_BUFFER_CAPACITY`
def commandBufferCapacity : Nat := 256

/-- What a sender sees of the actor task. -/
structure ActorHandle where
  isClosing : Bool
  -- the commands in the channel, and whether the actor task still takes them
  waiting : Nat
  receiving : Bool

namespace ActorHandle

def new : ActorHandle := ⟨false, 0, true⟩

def send (actor : ActorHandle) : Except String ActorHandle :=
  if actor.isClosing then .error "Connection is closing"
  else if actor.receiving = false then .error "Connection is closed"
  else if commandBufferCapacity ≤ actor.waiting then .error "Connection command queue is full"
  else .ok { actor with waiting := actor.waiting + 1 }

def close (actor : ActorHandle) : ActorHandle :=
  { actor with
    isClosing := true
    waiting := if actor.receiving = true ∧
      actor.waiting < commandBufferCapacity then actor.waiting + 1 else actor.waiting }

end ActorHandle

inductive HeartbeatTask where
  | notSpawned
  -- for the next tick of its interval or for a connection to Redis
  | waiting
  | next (t : RegistryTask)
  -- the command is on its way to Redis
  | sent (t : RegistryTask)
  -- a command that was on its way then still is
  | aborted (sent : Option RegistryTask)

namespace HeartbeatTask

def abort : HeartbeatTask → HeartbeatTask
  | .sent t => .aborted (some t)
  | .aborted t => .aborted t
  | _ => .aborted none

def Running : HeartbeatTask → Prop
  | .waiting | .next _ | .sent _ => True
  | _ => False

end HeartbeatTask

/-- What `run_connection` does next. -/
inductive SocketPhase where
  | checkToken
  | enforceLimit
  | newActor
  | fetchUsername
  | addConnection
  -- `register_presence_connection`
  | getRegister
  | register (t : RegistryTask)
  | initializeState
  | spawnHeartbeat
  | hello
  | replay (left : Nat)
  | snapshot
  | select
  -- cleanup
  | abortTasks
  | disconnect
  | removeConnection
  -- `handle_disconnect`
  | getUnregister
  | unregister (t : RegistryTask)
  | setOffline
  | returned

namespace SocketPhase

def unregisterRank : RegistryTask → Nat
  | .srem _ => 17
  | .delHeartbeat _ => 18
  | .scard => 19
  | _ => 20

@[simp] theorem unregisterRank_srem {c : Uuid} : unregisterRank (.srem c) = 17 := rfl
@[simp] theorem unregisterRank_delHeartbeat {c : Uuid} : unregisterRank (.delHeartbeat c) = 18 := rfl
@[simp] theorem unregisterRank_scard : unregisterRank .scard = 19 := rfl
@[simp] theorem unregisterRank_settle {left : Nat} : unregisterRank (.settle left) = 20 := rfl

theorem lt_unregisterRank (t : RegistryTask) : 16 < unregisterRank t := by
  cases t <;> exact Nat.le_of_ble_eq_true rfl

/-- How far `run_connection` has come. -/
def rank : SocketPhase → Nat
  | .checkToken => 0
  | .enforceLimit => 1
  | .newActor => 2
  | .fetchUsername => 3
  | .addConnection => 4
  | .getRegister => 5
  | .register _ => 6
  | .initializeState => 7
  | .spawnHeartbeat => 8
  | .hello => 9
  | .replay _ => 10
  | .snapshot => 11
  | .select => 12
  | .abortTasks => 13
  | .disconnect => 14
  | .removeConnection => 15
  | .getUnregister => 16
  | .unregister t => unregisterRank t
  | .setOffline => 21
  | .returned => 22

end SocketPhase

/-- What the loop over the events of the actor wakes up for. -/
inductive SelectEvent where
  | message
  | pong
  | closed
  | error
  | eventsEnded
  | forwardEnded
  | tokenExpired

/-- The values `run_connection` works with. -/
structure SocketParams where
  userId : Uuid
  username : String
  connectionId : Uuid
  -- how many messages a resumed session has missed
  missed : Nat

structure SocketState where
  phase : SocketPhase
  hub : WsHub
  registry : PresenceRegistry
  actor : ActorHandle
  heartbeat : HeartbeatTask
  forwarding : Bool
  -- whether the connection has been added
  added : Bool

inductive SocketOp where
  -- whether what is done next succeeds
  | go (ok : Bool)
  | event (e : SelectEvent)
  -- the heartbeat task
  | tick (connected : Bool)
  | send
  | execute (ok : Bool)
  -- the actor task
  | takeCommand
  | endActor
  -- other sockets
  | hub (op : HubOp)
  | registry (t : RegistryTask)
  | pass (millis : Nat)

namespace RegistryTask

/-- The connection that the command puts into the set or gives a heartbeat key. -/
def puts : RegistryTask → Option Uuid
  | .sadd _ connectionId | .setEx _ connectionId => some connectionId
  | _ => none

variable {r : PresenceRegistry} {t : RegistryTask} {c : Uuid} {ok : Bool}

theorem puts_of_adds (h : t.Adds c) : t.puts = some c := by
  cases t with
  | sadd b d => exact congrArg some h
  | _ => exact h.elim

theorem puts_of_refreshes (h : t.Refreshes c) : t.puts = some c := by
  cases t with
  | setEx b d => exact congrArg some h
  | _ => exact h.elim

theorem mem_run (h : c ∈ (t.run r ok).1.connections) : c ∈ r.connections ∨ t.Adds c := by
  cases ok with
  | true => exact mem_advance h
  | false => exact .inl h

theorem alive_run (h : (t.run r ok).1.Alive c) : r.Alive c ∨ t.Refreshes c := by
  cases ok with
  | true => exact alive_advance h
  | false => exact .inl h

end RegistryTask

namespace HubOp

def connection : HubOp → Option (Uuid × Uuid)
  | .addConnection userId _ connectionId | .removeConnection userId connectionId => some (userId, connectionId)
  | _ => none

end HubOp

namespace SocketState

def init (hub : WsHub) (registry : PresenceRegistry) : SocketState :=
  ⟨.checkToken, hub, registry, .new, .notSpawned, false, false⟩

def goTo (s : SocketState) (phase : SocketPhase) : SocketState := { s with phase }

@[simp] theorem goTo_phase {s : SocketState} {phase : SocketPhase} : (s.goTo phase).phase = phase := rfl

/-- One step of `run_connection` outside its loop over the events. -/
def go (k : SocketParams) (s : SocketState) (ok : Bool) : Option SocketState :=
  match s.phase with
  | .checkToken => some (s.goTo (if ok then .enforceLimit else .returned))
  | .enforceLimit => some (s.goTo (if ok then .newActor else .returned))
  | .newActor => some ({ s with actor := .new }.goTo .fetchUsername)
  | .fetchUsername =>
    some (if ok then s.goTo .addConnection else { s with actor := s.actor.close }.goTo .returned)
  | .addConnection => some ({ s with
      hub := s.hub.addConnection k.userId k.username k.connectionId
      added := true }.goTo .getRegister)
  | .getRegister => some (s.goTo (if ok then .register (.register k.connectionId) else .initializeState))
  | .register t => some ({ s with registry := (t.run s.registry ok).1 }.goTo
      ((t.run s.registry ok).2.elim .initializeState .register))
  | .initializeState => some (s.goTo .spawnHeartbeat)
  | .spawnHeartbeat => some ({ s with heartbeat := .waiting }.goTo .hello)
  | .hello =>
    match s.actor.send with
    | .ok actor => some ({ s with actor }.goTo (.replay k.missed))
    | .error _ => some (s.goTo .returned)
  | .replay 0 => some (s.goTo .snapshot)
  | .replay (left + 1) =>
    match s.actor.send with
    | .ok actor => some ({ s with actor }.goTo (.replay left))
    | .error _ => some (s.goTo .snapshot)
  -- the snapshot may not be asked for or not be built
  | .snapshot =>
    let actor := if ok then (s.actor.send.toOption).getD s.actor else s.actor
    some ({ s with actor, forwarding := true }.goTo .select)
  | .select => none
  | .abortTasks => some ({ s with forwarding := false, heartbeat := s.heartbeat.abort }.goTo .disconnect)
  | .disconnect => some ({ s with actor := { s.actor with isClosing := true } }.goTo .removeConnection)
  | .removeConnection => some ({ s with hub := s.hub.removeConnection k.userId k.connectionId }.goTo .getUnregister)
  | .getUnregister => some (s.goTo (if ok then .unregister (.unregister k.connectionId) else .setOffline))
  | .unregister t => some ({ s with registry := (t.run s.registry ok).1 }.goTo
      ((t.run s.registry ok).2.elim .setOffline .unregister))
  -- unless there are other connections or the presence is manual
  | .setOffline => some ({ s with hub := if ok then s.hub.setPresence k.userId "offline" else s.hub }.goTo .returned)
  | .returned => none

def wake (s : SocketState) : SelectEvent → SocketState
  | .message | .pong => s
  | .tokenExpired => { s with actor := s.actor.close }.goTo .abortTasks
  | _ => s.goTo .abortTasks

def step (k : SocketParams) (s : SocketState) : SocketOp → Option SocketState
  | .go ok => s.go k ok
  | .event e =>
    match s.phase with
    | .select => some (s.wake e)
    | _ => none
  | .tick connected =>
    match s.heartbeat with
    | .waiting => some { s with heartbeat := if connected then .next (.heartbeat k.connectionId) else .waiting }
    | _ => none
  | .send =>
    match s.heartbeat with
    | .next t => some { s with heartbeat := .sent t }
    | _ => none
  | .execute ok =>
    match s.heartbeat with
    | .sent t => some { s with
        registry := (t.run s.registry ok).1
        heartbeat := (t.run s.registry ok).2.elim .waiting .next }
    | .aborted (some t) => some { s with registry := (t.run s.registry ok).1, heartbeat := .aborted none }
    | _ => none
  | .takeCommand => some { s with actor := { s.actor with waiting := s.actor.waiting - 1 } }
  | .endActor => some { s with actor := { s.actor with isClosing := true, receiving := false } }
  -- the id of the connection is the socket's own
  | .hub op => if op.connection = some (k.userId, k.connectionId) then none else some { s with hub := s.hub.apply op }
  | .registry t =>
    if t.puts = some k.connectionId then none else some { s with registry := (t.advance s.registry).1 }
  | .pass millis => some { s with registry := s.registry.pass millis }

/-- When `run_connection` has returned, what it had acquired is gone. -/
def Released (k : SocketParams) (s : SocketState) : Prop :=
  s.phase = .returned → s.added = true →
    ¬ s.hub.IsConnected k.userId k.connectionId ∧ k.connectionId ∉ s.registry.connections ∧
      ¬ s.registry.Alive k.connectionId ∧ ¬ s.heartbeat.Running

/-- Hello is taken; what the cleanup is to take out of the registry it takes out; and a command of the heartbeat
that was on its way when its task was aborted comes before the one that undoes it. -/
def Orderly (k : SocketParams) (s : SocketState) : SocketOp → Prop
  | .go ok =>
    match s.phase with
    | .hello => ∃ actor, s.actor.send = .ok actor
    | .getUnregister => ok = false → k.connectionId ∉ s.registry.connections ∧
      ¬ s.registry.Alive k.connectionId
    | .unregister (.srem _) | .unregister (.settle 0) => ok = false → k.connectionId ∉ s.registry.connections
    | .unregister (.delHeartbeat _) => ok = false → ¬ s.registry.Alive k.connectionId
    | _ => True
  | .execute true => ∀ t, s.heartbeat = .aborted (some t) →
    (t.Adds k.connectionId → s.phase.rank ≤ 17 ∨ s.phase = .unregister (.settle 0)) ∧
      (t.Refreshes k.connectionId → s.phase.rank ≤ 18)
  | _ => True

variable {k : SocketParams} {s s' : SocketState} {p : SocketPhase} {ok : Bool} {op : SocketOp}

/-- What a step of `run_connection` up to its loop does, other than adding the connection: it goes on to the loop, or
returns when nothing has been added yet or hello is not taken. -/
structure Opens (s s' : SocketState) : Prop where
  hub : s'.hub = s.hub
  added : s'.added = s.added
  heartbeat : s'.heartbeat = s.heartbeat ∨ s'.heartbeat = .waiting
  before : s.phase.rank ≤ 11
  phase : s'.phase.rank ≤ 12 ∧ (4 < s'.phase.rank ↔ 4 < s.phase.rank) ∨
    s'.phase = .returned ∧ (s.phase.rank ≤ 3 ∨ s.phase = .hello ∧ ∀ actor, s.actor.send ≠ .ok actor)

theorem go_cases (hs : s.go k ok = some s') :
    s.Opens s' ∨
    (s.phase = .addConnection ∧ s' = { s with
      hub := s.hub.addConnection k.userId k.username k.connectionId
      added := true }.goTo .getRegister) ∨
    (s.phase = .abortTasks ∧
      s' = { s with forwarding := false, heartbeat := s.heartbeat.abort }.goTo .disconnect) ∨
    (s.phase = .disconnect ∧ s' = { s with actor := { s.actor with isClosing := true } }.goTo .removeConnection) ∨
    (s.phase = .removeConnection ∧
      s' = { s with hub := s.hub.removeConnection k.userId k.connectionId }.goTo .getUnregister) ∨
    (s.phase = .getUnregister ∧
      s' = s.goTo (if ok then .unregister (.unregister k.connectionId) else .setOffline)) ∨
    (∃ t, s.phase = .unregister t ∧ s' = { s with registry := (t.run s.registry ok).1 }.goTo
      ((t.run s.registry ok).2.elim .setOffline .unregister)) ∨
    (s.phase = .setOffline ∧
      s' = { s with hub := if ok then s.hub.setPresence k.userId "offline" else s.hub }.goTo .returned) := by
  unfold SocketState.go at hs
  have hopens : ∀ {p registry actor heartbeat forwarding}, heartbeat = s.heartbeat ∨ heartbeat = .waiting →
      (s.phase.rank ≤ 11 ∧ p.rank ≤ 12 ∧ (4 < p.rank ↔ 4 < s.phase.rank)) →
      s.Opens ({ s with registry, actor, heartbeat, forwarding }.goTo p) :=
    fun hheartbeat ⟨hbefore, hphase⟩ => ⟨rfl, rfl, hheartbeat, hbefore, .inl hphase⟩
  have hreturns : ∀ {actor}, s.phase.rank ≤ 3 → s.Opens ({ s with actor }.goTo .returned) :=
    fun h => ⟨rfl, rfl, .inl rfl, h.trans (by decide), .inr ⟨rfl, .inl h⟩⟩
  cases hp : s.phase with
  | checkToken =>
    rw [hp] at hs hopens hreturns
    obtain rfl := Option.some.inj hs
    cases ok with
    | true => exact .inl (hopens (.inl rfl) (by simp [SocketPhase.rank]))
    | false => exact .inl (hreturns (by simp [SocketPhase.rank]))
  | enforceLimit =>
    rw [hp] at hs hopens hreturns
    obtain rfl := Option.some.inj hs
    cases ok with
    | true => exact .inl (hopens (.inl rfl) (by simp [SocketPhase.rank]))
    | false => exact .inl (hreturns (by simp [SocketPhase.rank]))
  | newActor =>
    rw [hp] at hs hopens
    obtain rfl := Option.some.inj hs
    exact .inl (hopens (.inl rfl) (by simp [SocketPhase.rank]))
  | fetchUsername =>
    rw [hp] at hs hopens hreturns
    obtain rfl := Option.some.inj hs
    cases ok with
    | true => exact .inl (hopens (.inl rfl) (by simp [SocketPhase.rank]))
    | false => exact .inl (hreturns (by simp [SocketPhase.rank]))
  | addConnection =>
    rw [hp] at hs
    exact .inr (.inl ⟨rfl, (Option.some.inj hs).symm⟩)
  | getRegister =>
    rw [hp] at hs hopens
    obtain rfl := Option.some.inj hs
    cases ok <;> exact .inl (hopens (.inl rfl) (by simp [SocketPhase.rank]))
  | register t =>
    rw [hp] at hs hopens
    obtain rfl := Option.some.inj hs
    cases (t.run s.registry ok).2 <;>
      exact .inl (hopens (.inl rfl) (by simp [SocketPhase.rank]))
  | initializeState =>
    rw [hp] at hs hopens
    obtain rfl := Option.some.inj hs
    exact .inl (hopens (.inl rfl) (by simp [SocketPhase.rank]))
  | spawnHeartbeat =>
    rw [hp] at hs hopens
    obtain rfl := Option.some.inj hs
    exact .inl (hopens (.inr rfl) (by simp [SocketPhase.rank]))
  | hello =>
    rw [hp] at hs hopens
    dsimp only at hs
    split at hs
    · obtain rfl := Option.some.inj hs
      exact .inl (hopens (.inl rfl) (by simp [SocketPhase.rank]))
    · next e hsend =>
      obtain rfl := Option.some.inj hs
      refine .inl ⟨rfl, rfl, .inl rfl, by simp [hp, SocketPhase.rank],
        .inr ⟨rfl, .inr ⟨hp, fun actor h => ?_⟩⟩⟩
      rw [hsend] at h
      cases h
  | replay left =>
    rw [hp] at hs hopens
    cases left with
    | zero =>
      obtain rfl := Option.some.inj hs
      exact .inl (hopens (.inl rfl) (by simp [SocketPhase.rank]))
    | succ left =>
      dsimp only at hs
      split at hs <;> obtain rfl := Option.some.inj hs <;>
        exact .inl (hopens (.inl rfl) (by simp [SocketPhase.rank]))
  | snapshot =>
    rw [hp] at hs hopens
    obtain rfl := Option.some.inj hs
    exact .inl (hopens (.inl rfl) (by simp [SocketPhase.rank]))
  | select =>
    rw [hp] at hs
    cases hs
  | abortTasks =>
    rw [hp] at hs
    exact .inr (.inr (.inl ⟨rfl, (Option.some.inj hs).symm⟩))
  | disconnect =>
    rw [hp] at hs
    exact .inr (.inr (.inr (.inl ⟨rfl, (Option.some.inj hs).symm⟩)))
  | removeConnection =>
    rw [hp] at hs
    exact .inr (.inr (.inr (.inr (.inl ⟨rfl, (Option.some.inj hs).symm⟩))))
  | getUnregister =>
    rw [hp] at hs
    exact .inr (.inr (.inr (.inr (.inr (.inl ⟨rfl, (Option.some.inj hs).symm⟩)))))
  | unregister t =>
    rw [hp] at hs
    exact .inr (.inr (.inr (.inr (.inr (.inr (.inl ⟨t, rfl, (Option.some.inj hs).symm⟩))))))
  | setOffline =>
    rw [hp] at hs
    exact .inr (.inr (.inr (.inr (.inr (.inr (.inr ⟨rfl, (Option.some.inj hs).symm⟩))))))
  | returned =>
    rw [hp] at hs
    cases hs

structure Held (k : SocketParams) (s : SocketState) : Prop where
  added : 4 < s.phase.rank → s.phase.rank < 22 → s.added = true
  connected : 4 < s.phase.rank → s.phase.rank ≤ 15 → s.hub.IsConnected k.userId k.connectionId
  aborted : ∀ t, s.heartbeat = .aborted t → s.added = true
  unregister : ∀ t, s.phase = .unregister t →
    t = .srem k.connectionId ∨ t = .delHeartbeat k.connectionId ∨ t = .scard ∨ ∃ left, t = .settle left

theorem held_init {hub : WsHub} {registry : PresenceRegistry} : (init hub registry).Held k :=
  ⟨fun h => absurd h (by simp [init, SocketPhase.rank]),
    fun h => absurd h (by simp [init, SocketPhase.rank]), nofun, nofun⟩

theorem Held.move (h : s.Held k) (hhub : s'.hub = s.hub) (hadded : s'.added = s.added)
    (haborted : ∀ t, s'.heartbeat = .aborted t → s.added = true)
    (hrank : 4 < s'.phase.rank → s'.phase.rank < 22 → 4 < s.phase.rank ∧ s.phase.rank < 22)
    (hconnected : 4 < s'.phase.rank → s'.phase.rank ≤ 15 → 4 < s.phase.rank ∧ s.phase.rank ≤ 15)
    (hunregister : ∀ t, s'.phase = .unregister t →
      t = .srem k.connectionId ∨ t = .delHeartbeat k.connectionId ∨ t = .scard ∨
        ∃ left, t = .settle left) : s'.Held k where
  added := fun h₁ h₂ => hadded ▸ h.added (hrank h₁ h₂).1 (hrank h₁ h₂).2
  connected := fun h₁ h₂ => hhub ▸ h.connected (hconnected h₁ h₂).1 (hconnected h₁ h₂).2
  aborted := fun t ht => hadded ▸ haborted t ht
  unregister := hunregister

theorem Held.unregisterStep {t : RegistryTask} (h : s.Held k) (hp : s.phase = .unregister t) :
    ({ s with registry := (t.run s.registry ok).1 }.goTo ((t.run s.registry ok).2.elim .setOffline .unregister)).Held k := by
  have hlt := SocketPhase.lt_unregisterRank t
  have hrank : 16 < s.phase.rank ∧ s.phase.rank < 22 := by
    rw [hp]
    exact ⟨hlt, by cases t <;> exact Nat.le_of_ble_eq_true rfl⟩
  have hmove : ∀ p, 16 < p.rank → (∀ t, p = .unregister t →
      t = .srem k.connectionId ∨ t = .delHeartbeat k.connectionId ∨ t = .scard ∨ ∃ left, t = .settle left) →
      ({ s with registry := (t.run s.registry ok).1 }.goTo p).Held k := by
    intro p hlate hunregister
    refine h.move rfl rfl h.aborted (fun _ _ => ⟨by omega, hrank.2⟩) (fun _ hle => ?_) hunregister
    change p.rank ≤ 15 at hle
    omega
  rcases h.unregister t hp with rfl | rfl | rfl | ⟨left, rfl⟩
  · have hnext := hmove (.unregister (.delHeartbeat k.connectionId)) (by simp [SocketPhase.rank])
      fun t ht => .inr (.inl (SocketPhase.unregister.inj ht).symm)
    cases ok <;> exact hnext
  · have hnext := hmove (.unregister .scard) (by simp [SocketPhase.rank])
      fun t ht => .inr (.inr (.inl (SocketPhase.unregister.inj ht).symm))
    cases ok <;> exact hnext
  · cases ok with
    | true =>
      exact hmove (.unregister (.settle s.registry.connections.length)) (by simp [SocketPhase.rank])
        fun t ht => .inr (.inr (.inr ⟨_, (SocketPhase.unregister.inj ht).symm⟩))
    | false => exact hmove .setOffline (by simp [SocketPhase.rank]) nofun
  · have hnext := hmove .setOffline (by simp [SocketPhase.rank]) nofun
    cases ok <;> exact hnext

theorem Held.opens (h : s.Held k) (ho : s.Opens s') : s'.Held k := by
  have hreturned : s'.phase = .returned → ¬ s'.phase.rank < 22 ∧ ¬ s'.phase.rank ≤ 15 := by
    intro hp
    simp [hp, SocketPhase.rank]
  have hbefore := ho.before
  refine h.move ho.hub ho.added (fun t ht => ?_) (fun h₁ h₂ => ?_) (fun h₁ h₂ => ?_) fun t ht => ?_
  · rcases ho.heartbeat with hb | hb
    · exact h.aborted t (hb ▸ ht)
    · rw [hb] at ht
      cases ht
  · rcases ho.phase with ⟨-, hiff⟩ | ⟨hp, -⟩
    · exact ⟨hiff.1 h₁, by omega⟩
    · exact absurd h₂ (hreturned hp).1
  · rcases ho.phase with ⟨-, hiff⟩ | ⟨hp, -⟩
    · exact ⟨hiff.1 h₁, by omega⟩
    · exact absurd h₂ (hreturned hp).2
  · rcases ho.phase with ⟨hle, -⟩ | ⟨hp, -⟩
    · have hlt : 16 < s'.phase.rank := by
        rw [ht]
        exact SocketPhase.lt_unregisterRank t
      omega
    · rw [hp] at ht
      cases ht

theorem Held.go (h : s.Held k) (hs : s.go k ok = some s') : s'.Held k := by
  have hadded := h.added
  rcases go_cases hs with ho | ⟨hp, rfl⟩ | ⟨hp, rfl⟩ | ⟨hp, rfl⟩ | ⟨hp, rfl⟩ | ⟨hp, rfl⟩ |
    ⟨t, hp, rfl⟩ | ⟨hp, rfl⟩
  · exact h.opens ho
  · exact ⟨fun _ _ => rfl, fun _ _ => WsHub.isConnected_addConnection.2 (.inl ⟨rfl, rfl⟩), fun _ _ => rfl,
      nofun⟩
  · rw [hp] at hadded
    exact h.move rfl rfl (fun _ _ => hadded (by simp [SocketPhase.rank]) (by simp [SocketPhase.rank]))
      (by simp [hp, SocketPhase.rank]) (by simp [hp, SocketPhase.rank]) nofun
  · exact h.move rfl rfl h.aborted (by simp [hp, SocketPhase.rank]) (by simp [hp, SocketPhase.rank]) nofun
  · rw [hp] at hadded
    exact ⟨fun _ _ => hadded (by simp [SocketPhase.rank]) (by simp [SocketPhase.rank]),
      fun _ hle => absurd hle (by simp [SocketPhase.rank]), h.aborted, nofun⟩
  · cases ok with
    | true =>
      show (s.goTo (.unregister (.srem k.connectionId))).Held k
      exact h.move rfl rfl h.aborted (by simp [hp, SocketPhase.rank]) (by simp [hp, SocketPhase.rank])
        fun t ht => .inl (SocketPhase.unregister.inj ht).symm
    | false => exact h.move rfl rfl h.aborted (by simp [hp, SocketPhase.rank]) (by simp [hp, SocketPhase.rank]) nofun
  · exact h.unregisterStep hp
  · exact ⟨fun _ hlt => absurd hlt (by simp [SocketPhase.rank]), fun _ hle => absurd hle (by simp [SocketPhase.rank]),
      h.aborted, nofun⟩

theorem Held.frame (h : s.Held k) (hphase : s'.phase = s.phase) (hadded : s'.added = s.added)
    (hc : s.hub.IsConnected k.userId k.connectionId → s'.hub.IsConnected k.userId k.connectionId)
    (haborted : ∀ t, s'.heartbeat = .aborted t → ∃ t', s.heartbeat = .aborted t') : s'.Held k where
  added := by
    rw [hphase, hadded]
    exact h.added
  connected := by
    rw [hphase]
    exact fun h₁ h₂ => hc (h.connected h₁ h₂)
  aborted := by
    intro t ht
    obtain ⟨t', ht'⟩ := haborted t ht
    exact hadded ▸ h.aborted t' ht'
  unregister := by
    rw [hphase]
    exact h.unregister

theorem isConnected_of_apply {hub : WsHub} {u c : Uuid} {hubOp : HubOp} (hne : hubOp.connection ≠ some (u, c))
    (h : hub.IsConnected u c) : (hub.apply hubOp).IsConnected u c :=
  h.apply fun he => hne (by rw [he]; rfl)

theorem Held.step (h : s.Held k) (hs : s.step k op = some s') : s'.Held k := by
  cases op with
  | go ok => exact h.go hs
  | event e =>
    rw [SocketState.step] at hs
    split at hs
    · next hp =>
      obtain rfl := Option.some.inj hs
      cases e with
      | message => exact h
      | pong => exact h
      | _ => exact h.move rfl rfl h.aborted (by simp [hp, wake, SocketPhase.rank]) (by simp [hp, wake, SocketPhase.rank]) nofun
    · cases hs
  | tick connected =>
    rw [SocketState.step] at hs
    split at hs
    · obtain rfl := Option.some.inj hs
      refine h.frame rfl rfl id fun t ht => ?_
      cases connected <;> cases ht
    · cases hs
  | send =>
    rw [SocketState.step] at hs
    split at hs
    · obtain rfl := Option.some.inj hs
      exact h.frame rfl rfl id nofun
    · cases hs
  | execute ok =>
    rw [SocketState.step] at hs
    split at hs
    · next t ht =>
      obtain rfl := Option.some.inj hs
      refine h.frame rfl rfl id fun t' ht' => ?_
      change (t.run s.registry ok).2.elim HeartbeatTask.waiting .next = _ at ht'
      generalize (t.run s.registry ok).2 = next at ht'
      cases next <;> cases ht'
    · next t ht =>
      obtain rfl := Option.some.inj hs
      exact h.frame rfl rfl id fun t' _ => ⟨_, ht⟩
    · cases hs
  | takeCommand =>
    obtain rfl := Option.some.inj hs
    exact h.frame rfl rfl id fun t ht => ⟨t, ht⟩
  | endActor =>
    obtain rfl := Option.some.inj hs
    exact h.frame rfl rfl id fun t ht => ⟨t, ht⟩
  | hub hubOp =>
    rw [SocketState.step] at hs
    split at hs
    · cases hs
    · next hne =>
      obtain rfl := Option.some.inj hs
      exact h.frame rfl rfl (isConnected_of_apply hne) fun t ht => ⟨t, ht⟩
  | registry t =>
    rw [SocketState.step] at hs
    split at hs
    · cases hs
    · obtain rfl := Option.some.inj hs
      exact h.frame rfl rfl id fun t ht => ⟨t, ht⟩
  | pass millis =>
    obtain rfl := Option.some.inj hs
    exact h.frame rfl rfl id fun t ht => ⟨t, ht⟩

/-! ### Steps that undo what has been acquired -/

structure Inv (k : SocketParams) (s : SocketState) : Prop where
  early : s.phase.rank ≤ 4 → s.added = false
  connected : s.added = true → s.hub.IsConnected k.userId k.connectionId → s.phase.rank ≤ 15
  member : s.added = true → k.connectionId ∈ s.registry.connections →
    s.phase.rank ≤ 17 ∨ s.phase = .unregister (.settle 0)
  alive : s.added = true → s.registry.Alive k.connectionId → s.phase.rank ≤ 18
  running : s.added = true → s.heartbeat.Running → s.phase.rank ≤ 13

theorem Inv.released (h : s.Inv k) : s.Released k := by
  intro hp hadded
  refine ⟨fun hc => ?_, fun hmem => ?_, fun ha => ?_, fun hr => ?_⟩
  · have hle := h.connected hadded hc
    simp [hp, SocketPhase.rank] at hle
  · have hle := h.member hadded hmem
    simp [hp, SocketPhase.rank] at hle
  · have hle := h.alive hadded ha
    simp [hp, SocketPhase.rank] at hle
  · have hle := h.running hadded hr
    simp [hp, SocketPhase.rank] at hle

theorem inv_of_rank_le (h : s.phase.rank ≤ 13) (hadded : s.phase.rank ≤ 4 → s.added = false) : s.Inv k where
  early := hadded
  connected := fun _ _ => h.trans (by decide)
  member := fun _ _ => .inl (h.trans (by decide))
  alive := fun _ _ => h.trans (by decide)
  running := fun _ _ => h

theorem inv_goTo (h : p.rank ≤ 13) (hadded : p.rank ≤ 4 → s.added = false) : (s.goTo p).Inv k :=
  inv_of_rank_le h hadded

theorem inv_of_not_added (h : s.added = false) : s.Inv k where
  early := fun _ => h
  connected := fun hadded => absurd hadded (by rw [h]; decide)
  member := fun hadded => absurd hadded (by rw [h]; decide)
  alive := fun hadded => absurd hadded (by rw [h]; decide)
  running := fun hadded => absurd hadded (by rw [h]; decide)

theorem not_running_abort {heartbeat : HeartbeatTask} : ¬ heartbeat.abort.Running := by
  cases heartbeat <;> exact id

/-- Past the abort of the tasks the connection is there until it is removed, and so is the registration. -/
theorem Inv.late (h : s.Inv k) (hp : 13 < s.phase.rank) (hadded : s.added = true) : ¬ s.heartbeat.Running ∧
    (15 < s.phase.rank → ¬ s.hub.IsConnected k.userId k.connectionId) ∧
    (18 < s.phase.rank → ¬ s.registry.Alive k.connectionId) := by
  refine ⟨fun hr => ?_, fun hlt hc => ?_, fun hlt ha => ?_⟩
  · have hle := h.running hadded hr
    omega
  · have hle := h.connected hadded hc
    omega
  · have hle := h.alive hadded ha
    omega

theorem Inv.cleanup {registry : PresenceRegistry} (h : s.Inv k) (hrank : 15 < s.phase.rank) (hphase : 15 < p.rank)
    (hmem : s.added = true → k.connectionId ∈ registry.connections → p.rank ≤ 17 ∨ p = .unregister (.settle 0))
    (halive : s.added = true → registry.Alive k.connectionId → p.rank ≤ 18) :
    ({ s with registry }.goTo p).Inv k where
  early := by
    intro hle
    change p.rank ≤ 4 at hle
    omega
  connected := fun hadded hc => absurd hc ((h.late (by omega) hadded).2.1 hrank)
  member := hmem
  alive := halive
  running := fun hadded hr => absurd hr (h.late (by omega) hadded).1

theorem Inv.cleared {registry : PresenceRegistry} (h : s.Inv k) (hrank : 15 < s.phase.rank) (hphase : 15 < p.rank)
    (hmem : s.added = true → k.connectionId ∉ registry.connections)
    (halive : s.added = true → ¬ registry.Alive k.connectionId) : ({ s with registry }.goTo p).Inv k :=
  h.cleanup hrank hphase (fun hadded hmem' => absurd hmem' (hmem hadded)) fun hadded ha => absurd ha (halive hadded)

theorem Inv.sremStep (h : s.Inv k) (ho : s.Orderly k (.go ok)) (hp : s.phase = .unregister (.srem k.connectionId)) :
    ({ s with registry := (RegistryTask.run s.registry ok (.srem k.connectionId)).1 }.goTo
      (.unregister (.delHeartbeat k.connectionId))).Inv k := by
  rw [Orderly, hp] at ho
  refine h.cleanup (by simp [hp, SocketPhase.rank]) (by simp [SocketPhase.rank]) (fun _ hmem => ?_)
    fun _ _ => by simp [SocketPhase.rank]
  cases ok with
  | true => exact absurd hmem (RegistryTask.notMem_of_drops (t := .srem k.connectionId) rfl)
  | false => exact absurd hmem (ho rfl)

theorem Inv.delHeartbeatStep (h : s.Inv k) (ho : s.Orderly k (.go ok))
    (hp : s.phase = .unregister (.delHeartbeat k.connectionId)) :
    ({ s with registry := (RegistryTask.run s.registry ok (.delHeartbeat k.connectionId)).1 }.goTo
      (.unregister .scard)).Inv k := by
  rw [Orderly, hp] at ho
  refine h.cleared (by simp [hp, SocketPhase.rank]) (by simp [SocketPhase.rank]) (fun hadded hmem => ?_) fun _ ha => ?_
  · have hle := h.member hadded (by cases ok <;> exact hmem)
    simp [hp, SocketPhase.rank] at hle
  · cases ok with
    | true => exact (PresenceRegistry.alive_delHeartbeat.1 ha).1 rfl
    | false => exact ho rfl ha

theorem Inv.scardStep (h : s.Inv k) (hp : s.phase = .unregister .scard) (hphase : 15 < p.rank) :
    (s.goTo p).Inv k := by
  refine h.cleared (by simp [hp, SocketPhase.rank]) hphase (fun hadded hmem => ?_) fun hadded ha => ?_
  · have hle := h.member hadded hmem
    simp [hp, SocketPhase.rank] at hle
  · have hle := h.alive hadded ha
    simp [hp, SocketPhase.rank] at hle

theorem Inv.settleStep {left : Nat} (h : s.Inv k) (ho : s.Orderly k (.go ok)) (hp : s.phase = .unregister (.settle left)) :
    ({ s with registry := (RegistryTask.run s.registry ok (.settle left)).1 }.goTo .setOffline).Inv k := by
  rw [Orderly, hp] at ho
  refine h.cleared (by simp [hp, SocketPhase.rank]) (by simp [SocketPhase.rank]) (fun hadded hmem => ?_)
    fun hadded ha => ?_
  · cases left with
    | zero =>
      cases ok with
      | true => exact List.not_mem_nil hmem
      | false => exact ho rfl hmem
    | succ left =>
      have hle := h.member hadded (by cases ok <;> exact hmem)
      simp [hp, SocketPhase.rank] at hle
  · have hle := h.alive hadded (by cases ok <;> cases left <;> exact ha)
    simp [hp, SocketPhase.rank] at hle

theorem Inv.unregisterStep {t : RegistryTask} (h : s.Inv k) (hheld : s.Held k) (ho : s.Orderly k (.go ok)) (hp : s.phase = .unregister t) :
    ({ s with registry := (t.run s.registry ok).1 }.goTo ((t.run s.registry ok).2.elim .setOffline .unregister)).Inv k := by
  rcases hheld.unregister t hp with rfl | rfl | rfl | ⟨left, rfl⟩
  · have hs := h.sremStep ho hp
    cases ok <;> exact hs
  · have hs := h.delHeartbeatStep ho hp
    cases ok <;> exact hs
  · cases ok with
    | true => exact h.scardStep (p := .unregister (.settle s.registry.connections.length)) hp (by simp [SocketPhase.rank])
    | false => exact h.scardStep (p := .setOffline) hp (by simp [SocketPhase.rank])
  · have hs := h.settleStep ho hp
    cases ok <;> exact hs

theorem inv_leave {hub : WsHub} {actor : ActorHandle} {heartbeat : HeartbeatTask} {forwarding : Bool}
    (hphase : p = .disconnect ∨ p = .removeConnection ∨ p = .getUnregister)
    (hc : hub.IsConnected k.userId k.connectionId → p.rank ≤ 15) (hr : s.added = true → ¬ heartbeat.Running) :
    ({ s with hub, actor, heartbeat, forwarding }.goTo p).Inv k := by
  have hrank : 13 < p.rank ∧ p.rank ≤ 16 := by
    rcases hphase with rfl | rfl | rfl <;> simp [SocketPhase.rank]
  constructor
  · intro hearly
    change p.rank ≤ 4 at hearly
    omega
  · exact fun _ hc' => hc hc'
  · exact fun _ _ => .inl (Nat.le_succ_of_le hrank.2)
  · exact fun _ _ => Nat.le_add_right_of_le (k := 2) hrank.2
  · exact fun hadded hr' => absurd hr' (hr hadded)

theorem Inv.opens (h : s.Inv k) (ho : s.Orderly k (.go ok)) (hopens : s.Opens s') : s'.Inv k := by
  rcases hopens.phase with ⟨hle, hiff⟩ | ⟨-, hr | ⟨hp, hsend⟩⟩
  · refine inv_of_rank_le (by omega) fun h4 => ?_
    rw [hopens.added]
    exact h.early (by omega)
  · exact inv_of_not_added (hopens.added.trans (h.early (by omega)))
  · rw [Orderly, hp] at ho
    obtain ⟨actor, hok⟩ := ho
    exact absurd hok (hsend actor)

theorem Inv.go (h : s.Inv k) (hheld : s.Held k) (ho : s.Orderly k (.go ok)) (hs : s.go k ok = some s') :
    s'.Inv k := by
  rcases go_cases hs with hopens | ⟨hp, rfl⟩ | ⟨hp, rfl⟩ | ⟨hp, rfl⟩ | ⟨hp, rfl⟩ | ⟨hp, rfl⟩ |
    ⟨t, hp, rfl⟩ | ⟨hp, rfl⟩
  · exact h.opens ho hopens
  · exact inv_of_rank_le (by simp [SocketPhase.rank]) fun h4 => absurd h4 (by simp [SocketPhase.rank])
  · exact inv_leave (.inl rfl) (fun _ => by simp [SocketPhase.rank]) fun _ => not_running_abort
  · exact inv_leave (.inr (.inl rfl)) (fun _ => by simp [SocketPhase.rank])
      fun hadded => (h.late (by simp [hp, SocketPhase.rank]) hadded).1
  · exact inv_leave (.inr (.inr rfl)) (fun hc => absurd ⟨rfl, rfl⟩ (WsHub.isConnected_removeConnection.1 hc).1)
      fun hadded => (h.late (by simp [hp, SocketPhase.rank]) hadded).1
  · have hrank : 15 < s.phase.rank := by simp [hp, SocketPhase.rank]
    cases ok with
    | true =>
      exact h.cleanup (p := .unregister (.srem k.connectionId)) hrank (by simp [SocketPhase.rank])
        (fun _ _ => .inl (by simp [SocketPhase.rank])) fun _ _ => by simp [SocketPhase.rank]
    | false =>
      rw [Orderly, hp] at ho
      exact h.cleared (p := .setOffline) hrank (by simp [SocketPhase.rank]) (fun _ => (ho rfl).1) fun _ => (ho rfl).2
  · exact h.unregisterStep hheld ho hp
  · have hlate := fun hadded => h.late (by simp [hp, SocketPhase.rank]) hadded
    refine ⟨nofun, fun hadded hc => ?_, fun hadded hmem => ?_, fun hadded ha => ?_, fun hadded hr => ?_⟩
    · have hc' : s.hub.IsConnected k.userId k.connectionId := by cases ok <;> exact hc
      exact absurd hc' ((hlate hadded).2.1 (by simp [hp, SocketPhase.rank]))
    · have hle := h.member hadded hmem
      simp [hp, SocketPhase.rank] at hle
    · exact absurd ha ((hlate hadded).2.2 (by simp [hp, SocketPhase.rank]))
    · exact absurd hr (hlate hadded).1

theorem Inv.frame (h : s.Inv k) (hphase : s'.phase = s.phase) (hadded : s'.added = s.added)
    (hc : s'.hub.IsConnected k.userId k.connectionId → s.hub.IsConnected k.userId k.connectionId)
    (hmem : s.added = true → k.connectionId ∈ s'.registry.connections →
      k.connectionId ∈ s.registry.connections ∨ s.phase.rank ≤ 17 ∨ s.phase = .unregister (.settle 0))
    (halive : s.added = true → s'.registry.Alive k.connectionId →
      s.registry.Alive k.connectionId ∨ s.phase.rank ≤ 18)
    (hr : s'.heartbeat.Running → s.heartbeat.Running) : s'.Inv k where
  early := by
    rw [hphase, hadded]
    exact h.early
  connected := by
    rw [hphase, hadded]
    exact fun ha hc' => h.connected ha (hc hc')
  member := by
    rw [hphase, hadded]
    exact fun ha hmem' => (hmem ha hmem').elim (h.member ha) id
  alive := by
    rw [hphase, hadded]
    exact fun ha ha' => (halive ha ha').elim (h.alive ha) id
  running := by
    rw [hphase, hadded]
    exact fun ha hr' => h.running ha (hr hr')

theorem isConnected_apply {hub : WsHub} {u c : Uuid} {hubOp : HubOp} (hne : hubOp.connection ≠ some (u, c))
    (h : (hub.apply hubOp).IsConnected u c) : hub.IsConnected u c := by
  cases hubOp with
  | addConnection userId username connectionId =>
    rcases WsHub.isConnected_addConnection.1 h with ⟨rfl, rfl⟩ | h
    · exact absurd rfl hne
    · exact h
  | removeConnection userId connectionId => exact (WsHub.isConnected_removeConnection.1 h).2
  | _ => exact h

theorem Inv.execute (h : s.Inv k) (ho : s.Orderly k (.execute ok))
    (hs : s.step k (.execute ok) = some s') : s'.Inv k := by
  rw [step] at hs
  split at hs
  · next t ht =>
    obtain rfl := Option.some.inj hs
    have hrunning : s.heartbeat.Running := by
      rw [ht]
      trivial
    refine h.frame rfl rfl id (fun ha _ => .inr (.inl ?_)) (fun ha _ => .inr ?_) fun _ => hrunning
    · exact (h.running ha hrunning).trans (by decide)
    · exact (h.running ha hrunning).trans (by decide)
  · next t ht =>
    obtain rfl := Option.some.inj hs
    cases ok with
    | false => exact h.frame rfl rfl id (fun _ => .inl) (fun _ => .inl) False.elim
    | true =>
      obtain ⟨hadds, hrefreshes⟩ := ho t ht
      exact h.frame rfl rfl id (fun _ hmem => (RegistryTask.mem_run hmem).imp_right hadds)
        (fun _ ha => (RegistryTask.alive_run ha).imp_right hrefreshes) False.elim
  · cases hs

theorem Inv.step (h : s.Inv k) (hheld : s.Held k) (ho : s.Orderly k op) (hs : s.step k op = some s') :
    s'.Inv k := by
  cases op with
  | go ok => exact h.go hheld ho hs
  | event e =>
    rw [SocketState.step] at hs
    split at hs
    · obtain rfl := Option.some.inj hs
      cases e with
      | message => exact h
      | pong => exact h
      | _ => exact inv_goTo (by simp [SocketPhase.rank]) nofun
    · cases hs
  | tick connected =>
    rw [SocketState.step] at hs
    split at hs
    · next ht =>
      obtain rfl := Option.some.inj hs
      refine h.frame rfl rfl id (fun _ => .inl) (fun _ => .inl) fun _ => ?_
      rw [ht]
      trivial
    · cases hs
  | send =>
    rw [SocketState.step] at hs
    split at hs
    · next t ht =>
      obtain rfl := Option.some.inj hs
      refine h.frame rfl rfl id (fun _ => .inl) (fun _ => .inl) fun _ => ?_
      rw [ht]
      trivial
    · cases hs
  | execute ok => exact h.execute ho hs
  | takeCommand =>
    obtain rfl := Option.some.inj hs
    exact h.frame rfl rfl id (fun _ => .inl) (fun _ => .inl) id
  | endActor =>
    obtain rfl := Option.some.inj hs
    exact h.frame rfl rfl id (fun _ => .inl) (fun _ => .inl) id
  | hub hubOp =>
    rw [SocketState.step] at hs
    split at hs
    · cases hs
    · next hne =>
      obtain rfl := Option.some.inj hs
      exact h.frame rfl rfl (isConnected_apply hne) (fun _ => .inl) (fun _ => .inl) id
  | registry t =>
    rw [SocketState.step] at hs
    split at hs
    · cases hs
    · next hne =>
      obtain rfl := Option.some.inj hs
      refine h.frame rfl rfl id (fun _ hmem => .inl ?_) (fun _ ha => .inl ?_) id
      · exact (RegistryTask.mem_advance hmem).resolve_right fun hadds => hne (RegistryTask.puts_of_adds hadds)
      · exact (RegistryTask.alive_advance ha).resolve_right fun hr => hne (RegistryTask.puts_of_refreshes hr)
  | pass millis =>
    obtain rfl := Option.some.inj hs
    exact h.frame rfl rfl id (fun _ hmem => .inl (PresenceRegistry.mem_of_pass hmem)) (fun _ ha => .inl ha.of_pass) id

/-! ### Steps that leave something behind -/

/-- Late in the cleanup, something is in the registry that nothing takes out any more. -/
structure Leaks (k : SocketParams) (s : SocketState) : Prop where
  added : s.added = true
  left : k.connectionId ∈ s.registry.connections ∧ s.phase ≠ .unregister (.settle 0) ∧ 17 < s.phase.rank ∨
    s.registry.Alive k.connectionId ∧ 18 < s.phase.rank
  unregister : ∀ t, s.phase = .unregister t →
    t = .delHeartbeat k.connectionId ∨ t = .scard ∨ ∃ left, t = .settle left

theorem Leaks.goTo {registry : PresenceRegistry} (h : s.Leaks k)
    (hleft : k.connectionId ∈ registry.connections ∧ p ≠ .unregister (.settle 0) ∧ 17 < p.rank ∨
      registry.Alive k.connectionId ∧ 18 < p.rank)
    (hunregister : ∀ t, p = .unregister t → t = .scard ∨ ∃ left, t = .settle left) :
    ({ s with registry }.goTo p).Leaks k :=
  ⟨h.added, hleft, fun t ht => .inr (hunregister t ht)⟩

theorem Leaks.go (h : s.Leaks k) (hp : s.phase ≠ .returned) :
    ∃ s', s.go k true = some s' ∧ s'.Leaks k ∧ 22 - s'.phase.rank < 22 - s.phase.rank := by
  have hleft := h.left
  unfold SocketState.go
  cases hphase : s.phase with
  | unregister t =>
    rw [hphase] at hleft
    rcases h.unregister t hphase with rfl | rfl | ⟨left, rfl⟩
    · have hmem := hleft.resolve_right fun ha => absurd ha.2 (by simp [SocketPhase.rank])
      refine ⟨_, rfl, h.goTo (p := .unregister .scard) (.inl ⟨hmem.1, nofun, by simp [SocketPhase.rank]⟩) ?_, ?_⟩
      · exact fun t ht => .inl (SocketPhase.unregister.inj ht).symm
      · exact Nat.le_of_ble_eq_true rfl
    · refine ⟨_, rfl, h.goTo (p := .unregister (.settle s.registry.connections.length)) ?_ ?_, ?_⟩
      · refine hleft.imp (fun hmem => ⟨hmem.1, ?_, by simp [SocketPhase.rank]⟩)
          fun ha => ⟨ha.1, by simp [SocketPhase.rank]⟩
        intro heq
        have hlength := RegistryTask.settle.inj (SocketPhase.unregister.inj heq)
        exact List.ne_nil_of_mem hmem.1 (List.length_eq_zero_iff.1 hlength)
      · exact fun t ht => .inr ⟨_, (SocketPhase.unregister.inj ht).symm⟩
      · exact Nat.le_of_ble_eq_true rfl
    · refine ⟨_, rfl, h.goTo (p := .setOffline) ?_ nofun, Nat.le_of_ble_eq_true rfl⟩
      refine hleft.imp (fun hmem => ⟨?_, nofun, by simp [SocketPhase.rank]⟩) fun ha => ⟨?_,
        by simp [SocketPhase.rank]⟩
      · refine RegistryTask.mem_advance_of_mem (t := .settle left) hmem.1 ?_
        rintro rfl
        exact hmem.2.1 rfl
      · exact RegistryTask.alive_advance_of_alive (t := .settle left) ha.1 id
  | setOffline =>
    rw [hphase] at hleft
    refine ⟨_, rfl, ⟨h.added, ?_, nofun⟩, Nat.le_of_ble_eq_true rfl⟩
    exact hleft.imp (fun hmem => ⟨hmem.1, nofun, by simp [SocketPhase.rank]⟩)
      fun ha => ⟨ha.1, by simp [SocketPhase.rank]⟩
  | returned => exact absurd hphase hp
  | _ =>
    rw [hphase] at hleft
    simp [SocketPhase.rank] at hleft

theorem Leaks.exists_not_released (h : s.Leaks k) :
    ∃ ops s', Run.exec (step k) s ops = some s' ∧ ¬ s'.Released k := by
  have hend : ∃ ops s', Run.exec (step k) s ops = some s' ∧ s'.Leaks k ∧ s'.phase = .returned := by
    refine Run.exists_exec (fun s : SocketState => 22 - s.phase.rank) (fun s h hp => ?_) h
    obtain ⟨s', hs, hleaks, hlt⟩ := Leaks.go h hp
    exact ⟨[.go true], s', Run.exec_singleton.trans hs, hleaks, hlt⟩
  obtain ⟨ops, s', hexec, hleaks, hp⟩ := hend
  refine ⟨ops, s', hexec, fun hreleased => ?_⟩
  obtain ⟨-, hmem, ha, -⟩ := hreleased hp hleaks.added
  exact hleaks.left.elim (fun hleft => hmem hleft.1) fun hleft => ha hleft.1

theorem exists_not_released (h : s.Held k) (ho : ¬ s.Orderly k op) (hs : s.step k op = some s') :
    ∃ ops t, Run.exec (step k) s' ops = some t ∧ ¬ t.Released k := by
  cases op with
  | go ok =>
    have hadded := h.added
    have hconnected := h.connected
    change s.go k ok = some s' at hs
    unfold SocketState.go at hs
    rw [Orderly] at ho
    cases hp : s.phase with
    | hello =>
      rw [hp] at hs ho hadded hconnected
      dsimp only at hs
      split at hs
      · next actor hsend => exact absurd ⟨actor, hsend⟩ ho
      · obtain rfl := Option.some.inj hs
        refine ⟨[], _, rfl, fun hreleased => ?_⟩
        obtain ⟨hc, -⟩ := hreleased rfl (hadded (by simp [SocketPhase.rank]) (by simp [SocketPhase.rank]))
        exact hc (hconnected (by simp [SocketPhase.rank]) (by simp [SocketPhase.rank]))
    | getUnregister =>
      rw [hp] at hs ho hadded
      obtain ⟨rfl, hleft⟩ := Classical.not_imp.1 ho
      obtain rfl := Option.some.inj hs
      refine Leaks.exists_not_released ⟨hadded (by simp [SocketPhase.rank]) (by simp [SocketPhase.rank]),
        ?_, nofun⟩
      by_cases hmem : k.connectionId ∈ s.registry.connections
      · exact .inl ⟨hmem, nofun, by simp [SocketPhase.rank]⟩
      · exact .inr ⟨not_not.1 fun ha => hleft ⟨hmem, ha⟩, by simp [SocketPhase.rank]⟩
    | unregister t =>
      rw [hp] at hs ho hadded
      rcases h.unregister t hp with rfl | rfl | rfl | ⟨left, rfl⟩
      · obtain ⟨rfl, hmem⟩ := Classical.not_imp.1 ho
        obtain rfl := Option.some.inj hs
        refine Leaks.exists_not_released ⟨hadded (by simp [SocketPhase.rank]) (by simp [SocketPhase.rank]), ?_, ?_⟩
        · exact .inl ⟨not_not.1 hmem, nofun,
            by simp [RegistryTask.run, RegistryTask.failed, SocketPhase.rank]⟩
        · exact fun t ht => .inl (SocketPhase.unregister.inj ht).symm
      · obtain ⟨rfl, ha⟩ := Classical.not_imp.1 ho
        obtain rfl := Option.some.inj hs
        refine Leaks.exists_not_released ⟨hadded (by simp [SocketPhase.rank]) (by simp [SocketPhase.rank]), ?_, ?_⟩
        · exact .inr ⟨not_not.1 ha, by simp [RegistryTask.run, RegistryTask.failed, SocketPhase.rank]⟩
        · exact fun t ht => .inr (.inl (SocketPhase.unregister.inj ht).symm)
      · exact absurd trivial ho
      · cases left with
        | zero =>
          obtain ⟨rfl, hmem⟩ := Classical.not_imp.1 ho
          obtain rfl := Option.some.inj hs
          refine Leaks.exists_not_released ⟨hadded (by simp [SocketPhase.rank]) (by simp [SocketPhase.rank]), ?_, nofun⟩
          exact .inl ⟨not_not.1 hmem, nofun, Nat.le_of_ble_eq_true rfl⟩
        | succ left => exact absurd trivial ho
    | _ =>
      rw [hp] at ho
      exact absurd trivial ho
  | execute ok =>
    cases ok with
    | false => exact absurd trivial ho
    | true =>
      obtain ⟨t, ht⟩ := not_forall.1 ho
      obtain ⟨ht, hlate⟩ := Classical.not_imp.1 ht
      rw [SocketState.step, ht] at hs
      obtain rfl := Option.some.inj hs
      have hleft : k.connectionId ∈ (t.advance s.registry).1.connections ∧ s.phase ≠ .unregister (.settle 0) ∧
          17 < s.phase.rank ∨ (t.advance s.registry).1.Alive k.connectionId ∧ 18 < s.phase.rank := by
        by_contra hno
        refine hlate ⟨fun hadds => ?_, fun hrefreshes => ?_⟩
        · by_contra hrank
          obtain ⟨hlt, hne⟩ := not_or.1 hrank
          exact hno (.inl ⟨RegistryTask.mem_advance_of_adds hadds, hne, Nat.lt_of_not_le hlt⟩)
        · by_contra hrank
          exact hno (.inr ⟨RegistryTask.alive_advance_of_refreshes hrefreshes, Nat.lt_of_not_le hrank⟩)
      refine Leaks.exists_not_released ⟨h.aborted _ ht, hleft, fun t' ht' => ?_⟩
      change s.phase = .unregister t' at ht'
      refine (h.unregister t' ht').resolve_left ?_
      rintro rfl
      rw [ht'] at hleft
      simp [SocketPhase.rank] at hleft
  | _ => exact absurd trivial ho

/-- In a run whose steps all meet the condition `run_connection` leaves nothing behind when it returns. Any other
step of a run can be followed by a return that does. -/
theorem released_of_orderly (k : SocketParams) (hub : WsHub) (registry : PresenceRegistry) (ops : List SocketOp) :
    (Run.AllSteps (step k) (Orderly k) (init hub registry) ops → Run.AllStates (step k) (Released k) (init hub registry) ops) ∧
      ∀ s op s', Run.exec (step k) (init hub registry) ops = some s → s.step k op = some s' → ¬ s.Orderly k op →
        ∃ ops' t, Run.exec (step k) s' ops' = some t ∧ ¬ t.Released k := by
  constructor
  · intro ho
    have hinv : ∀ s op s', Inv k s ∧ Held k s → s.Orderly k op → s.step k op = some s' →
      Inv k s' ∧ Held k s' :=
      fun _ _ _ h ho hs => ⟨h.1.step h.2 ho hs, h.2.step hs⟩
    refine (Run.allStates_of_allSteps hinv ⟨?_, held_init⟩ ho).mono fun s h => h.1.released
    exact inv_of_rank_le (by simp [init, SocketPhase.rank]) fun _ => rfl
  · intro s op s' hexec hs ho
    refine exists_not_released ?_ ho hs
    exact Run.invariant_last (fun _ _ _ h hs => Held.step h hs) held_init hexec

/-- The client goes away while its connection is being registered. -/
def closedBeforeHello : List SocketOp :=
  [.go true, .go true, .go true, .go true, .go true, .go true, .go true, .go true, .go true, .endActor, .go true, .go true,
    .tick true, .go true]

theorem hello_leaves_connection :
    ∃ s, Run.exec (step ⟨1, "ann", 7, 0⟩) (init .new (.new 0)) closedBeforeHello = some s ∧
      ¬ s.Released ⟨1, "ann", 7, 0⟩ := by
  refine ⟨_, rfl, fun hreleased => ?_⟩
  exact (hreleased rfl rfl).1 (by decide)

end SocketState

end Rustchat
