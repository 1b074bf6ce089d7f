import Rustchat.Events
import Rustchat.Lib.Assoc
import Rustchat.Lib.Run

/-!
# The presence registry of a user (`api/websocket_core.rs`, `realtime/cluster_limits.rs`)

In Redis a user has a set of connections and for each connection a heartbeat key, all of which expire.
`register`, `heartbeat`, `unregister` and `count` send their commands one after the other, and the commands of
several of them interleave. The set and the heartbeat keys agree with what has been registered as long as
no command drops a connection that another task is just refreshing and none puts back what has been
unregistered (`RegistryState.agree_of_orderly`). The ids are uuids, which `trim` leaves as they are.
-/

namespace Rustchat

-- `PRESENCE_HEARTBEAT_TTL_SECONDS`, in milliseconds
def presenceHeartbeatTtl : Nat := 90000

structure PresenceRegistry where
  now : Nat
  -- the set and when it expires
  connections : List Uuid
  expires : Option Nat
  -- when the heartbeat key of a connection expires
  heartbeats : Uuid → Option Nat

namespace PresenceRegistry

def new (now : Nat) : PresenceRegistry := ⟨now, [], none, fun _ => none⟩

variable (r : PresenceRegistry)

def sadd (connectionId : Uuid) : PresenceRegistry :=
  { r with connections := r.connections.insert connectionId }

-- a set without members is no key
def srem (connectionIds : List Uuid) : PresenceRegistry :=
  let connections := r.connections.filter (· ∉ connectionIds)
  { r with connections, expires := if connections = [] then none else r.expires }

def del : PresenceRegistry := { r with connections := [], expires := none }

def expire : PresenceRegistry :=
  { r with expires := if r.connections = [] then none else some (r.now + presenceHeartbeatTtl * 2) }

def setEx (connectionId : Uuid) : PresenceRegistry :=
  { r with heartbeats := Function.update r.heartbeats connectionId (some (r.now + presenceHeartbeatTtl)) }

def delHeartbeat (connectionId : Uuid) : PresenceRegistry :=
  { r with heartbeats := Function.update r.heartbeats connectionId none }

/-- The set expires within the next `millis`. -/
def Expires (millis : Nat) : Prop := ∃ t, r.expires = some t ∧ t ≤ r.now + millis

instance (millis : Nat) : Decidable (r.Expires millis) :=
  match h : r.expires with
  | some t => decidable_of_iff (t ≤ r.now + millis) (by simp [Expires, h])
  | none => .isFalse (by simp [Expires, h])

/-- `millis` pass. -/
def pass (millis : Nat) : PresenceRegistry where
  now := r.now + millis
  connections := if r.Expires millis then [] else r.connections
  expires := if r.Expires millis then none else r.expires
  heartbeats connectionId := (r.heartbeats connectionId).filter (r.now + millis < ·)

def Alive (connectionId : Uuid) : Prop := (r.heartbeats connectionId).isSome

instance (connectionId : Uuid) : Decidable (r.Alive connectionId) := inferInstanceAs (Decidable (_ = true))

variable {r} {c d : Uuid} {millis : Nat} {cs : List Uuid}

theorem mem_sadd : c ∈ (r.sadd d).connections ↔ c = d ∨ c ∈ r.connections := List.mem_insert_iff

theorem mem_srem : c ∈ (r.srem cs).connections ↔ c ∈ r.connections ∧ c ∉ cs := by
  simp [srem]

theorem alive_setEx : (r.setEx d).Alive c ↔ c = d ∨ r.Alive c := by
  unfold Alive setEx
  by_cases h : c = d
  · subst h
    simp
  · simp [h]

theorem alive_delHeartbeat : (r.delHeartbeat d).Alive c ↔ c ≠ d ∧ r.Alive c := by
  unfold Alive delHeartbeat
  by_cases h : c = d
  · subst h
    simp
  · simp [h]

theorem Alive.of_pass (h : (r.pass millis).Alive c) : r.Alive c := by
  unfold Alive pass at h
  rw [Option.isSome_filter] at h
  exact Option.isSome_of_any h

theorem mem_of_pass (h : c ∈ (r.pass millis).connections) : c ∈ r.connections := by
  unfold pass at h
  dsimp only at h
  split at h
  · cases h
  · exact h

end PresenceRegistry

/-- The command a task sends next, with what it needs afterwards. -/
inductive RegistryTask where
  -- `register_presence_connection` and `heartbeat_presence_connection`
  | sadd (isHeartbeat : Bool) (connectionId : Uuid)
  | setEx (isHeartbeat : Bool) (connectionId : Uuid)
  | expire
  -- `unregister_presence_connection`
  | srem (connectionId : Uuid)
  | delHeartbeat (connectionId : Uuid)
  | scard
  -- `get_global_connection_count`
  | smembers
  | existsHeartbeat (connectionId : Uuid) (rest : List Uuid) (active : Nat) (stale : List Uuid)
  | sremStale (active : Nat) (stale : List Uuid)
  -- EXPIRE if some are left, and DEL if not
  | settle (left : Nat)
deriving DecidableEq

namespace RegistryTask

def register (connectionId : Uuid) : RegistryTask := .sadd false connectionId
def heartbeat (connectionId : Uuid) : RegistryTask := .sadd true connectionId
def unregister (connectionId : Uuid) : RegistryTask := .srem connectionId
def count : RegistryTask := .smembers

/-- The loop over the members, when it has got to `rest`. -/
def checkRest (rest : List Uuid) (active : Nat) (stale : List Uuid) : RegistryTask :=
  match rest with
  | connectionId :: rest => .existsHeartbeat connectionId rest active stale
  | [] => if stale = [] then .settle active else .sremStale active stale

def advance (r : PresenceRegistry) : RegistryTask → PresenceRegistry × Option RegistryTask
  | .sadd isHeartbeat connectionId => (r.sadd connectionId, some (.setEx isHeartbeat connectionId))
  | .setEx _ connectionId => (r.setEx connectionId, some .expire)
  | .expire => (r.expire, none)
  | .srem connectionId => (r.srem [connectionId], some (.delHeartbeat connectionId))
  | .delHeartbeat connectionId => (r.delHeartbeat connectionId, some .scard)
  | .scard => (r, some (.settle r.connections.length))
  | .smembers => (r, if r.connections = [] then none else some (checkRest r.connections 0 []))
  | .existsHeartbeat connectionId rest active stale =>
    (r, some (if r.Alive connectionId then checkRest rest (active + 1) stale
      else checkRest rest active (stale ++ [connectionId])))
  | .sremStale active stale => (r.srem stale, some (.settle active))
  | .settle left => (if left = 0 then r.del else r.expire, none)

def failed : RegistryTask → Option RegistryTask
  | .setEx isHeartbeat _ => if isHeartbeat then none else some .expire
  | .srem connectionId => some (.delHeartbeat connectionId)
  | .delHeartbeat _ => some .scard
  | _ => none

/-- The command, which fails unless `ok`. -/
def run (r : PresenceRegistry) (ok : Bool) (t : RegistryTask) : PresenceRegistry × Option RegistryTask :=
  if ok then t.advance r else (r, t.failed)

def activeCount : RegistryTask → Nat
  | .settle left => left
  | _ => 0

def Adds (connectionId : Uuid) : RegistryTask → Prop
  | .sadd _ c => c = connectionId
  | _ => False

def Refreshes (connectionId : Uuid) : RegistryTask → Prop
  | .setEx _ c => c = connectionId
  | _ => False

def Drops (connectionId : Uuid) : RegistryTask → Prop
  | .srem c => c = connectionId
  | .sremStale _ stale => connectionId ∈ stale
  | .settle left => left = 0
  | _ => False

/-- The task is sure to take the connection out of the set or to delete its heartbeat key. -/
def Removes (connectionId : Uuid) : RegistryTask → Prop
  | .srem c | .delHeartbeat c => c = connectionId
  | .existsHeartbeat _ _ _ stale => connectionId ∈ stale
  | .sremStale active stale => active = 0 ∨ connectionId ∈ stale
  | .settle left => left = 0
  | _ => False

def Unregisters (connectionId : Uuid) : RegistryTask → Prop
  | .srem c | .delHeartbeat c => c = connectionId
  | _ => False

variable {r : PresenceRegistry} {t t' : RegistryTask} {c : Uuid}

theorem removes_checkRest {rest stale : List Uuid} {n : Nat} (h : c ∈ stale) :
    (checkRest rest n stale).Removes c := by
  unfold checkRest
  split
  · exact h
  · rw [if_neg (List.ne_nil_of_mem h)]
    exact .inr h

theorem mem_advance (h : c ∈ (t.advance r).1.connections) : c ∈ r.connections ∨ t.Adds c := by
  cases t with
  | sadd b d => exact (PresenceRegistry.mem_sadd.1 h).symm.imp_right Eq.symm
  | srem d => exact .inl (PresenceRegistry.mem_srem.1 h).1
  | sremStale n stale => exact .inl (PresenceRegistry.mem_srem.1 h).1
  | settle left =>
    simp only [advance] at h
    split at h
    · cases h
    · exact .inl h
  | _ => exact .inl h

theorem mem_advance_of_adds (h : t.Adds c) : c ∈ (t.advance r).1.connections := by
  cases t with
  | sadd b d => exact PresenceRegistry.mem_sadd.2 (.inl h.symm)
  | _ => exact h.elim

theorem mem_advance_of_mem (h : c ∈ r.connections) (hd : ¬ t.Drops c) : c ∈ (t.advance r).1.connections := by
  cases t with
  | sadd b d => exact PresenceRegistry.mem_sadd.2 (.inr h)
  | srem d =>
    refine PresenceRegistry.mem_srem.2 ⟨h, fun hc => hd ?_⟩
    exact (List.mem_singleton.1 hc).symm
  | sremStale n stale => exact PresenceRegistry.mem_srem.2 ⟨h, hd⟩
  | settle left =>
    simp only [advance]
    rw [if_neg (show left ≠ 0 from hd)]
    exact h
  | _ => exact h

theorem alive_advance (h : (t.advance r).1.Alive c) : r.Alive c ∨ t.Refreshes c := by
  cases t with
  | setEx b d => exact (PresenceRegistry.alive_setEx.1 h).symm.imp_right Eq.symm
  | delHeartbeat d => exact .inl (PresenceRegistry.alive_delHeartbeat.1 h).2
  | settle left =>
    simp only [advance] at h
    split at h <;> exact .inl h
  | _ => exact .inl h

theorem checkRest_counts {rest stale : List Uuid} {n : Nat} : ¬ (checkRest rest n stale).Adds c ∧
    ¬ (checkRest rest n stale).Refreshes c ∧ ¬ (checkRest rest n stale).Unregisters c := by
  unfold checkRest
  split
  · exact ⟨id, id, id⟩
  · split <;> exact ⟨id, id, id⟩

theorem advance_counts (ht : (t.advance r).2 = some t')
    (hcount : t = .smembers ∨ ∃ d rest n stale, t = .existsHeartbeat d rest n stale) :
    ¬ t'.Adds c ∧ ¬ t'.Refreshes c ∧ ¬ t'.Unregisters c := by
  rcases hcount with rfl | ⟨d, rest, n, stale, rfl⟩
  · simp only [advance] at ht
    split at ht
    · cases ht
    · obtain rfl := Option.some.inj ht
      exact checkRest_counts
  · simp only [advance] at ht
    split at ht
    · obtain rfl := Option.some.inj ht
      exact checkRest_counts
    · obtain rfl := Option.some.inj ht
      exact checkRest_counts

theorem adds_of_advance (ht : (t.advance r).2 = some t') (h : t'.Refreshes c) : t.Adds c := by
  cases t with
  | sadd b d =>
    obtain rfl := Option.some.inj ht
    exact h
  | smembers => exact absurd h (advance_counts ht (.inl rfl)).2.1
  | existsHeartbeat d rest n stale => exact absurd h (advance_counts ht (.inr ⟨d, rest, n, stale, rfl⟩)).2.1
  | settle left => cases ht
  | expire => cases ht
  | _ =>
    obtain rfl := Option.some.inj ht
    exact h.elim

theorem removes_advance (h : t.Removes c) (hmem : c ∈ (t.advance r).1.connections) (ha : (t.advance r).1.Alive c) :
    ∃ t', (t.advance r).2 = some t' ∧ t'.Removes c := by
  cases t with
  | srem d => exact ⟨_, rfl, h⟩
  | delHeartbeat d => exact absurd h.symm (PresenceRegistry.alive_delHeartbeat.1 ha).1
  | existsHeartbeat d rest n stale =>
    refine ⟨_, rfl, ?_⟩
    split
    · exact removes_checkRest h
    · exact removes_checkRest (List.mem_append_left _ h)
  | sremStale n stale => exact ⟨_, rfl, h.resolve_right (PresenceRegistry.mem_srem.1 hmem).2⟩
  | settle left =>
    simp only [advance] at hmem
    rw [if_pos (show left = 0 from h)] at hmem
    cases hmem
  | _ => exact h.elim

theorem not_adds_of_advance (ht : (t.advance r).2 = some t') : ¬ t'.Adds c := by
  cases t with
  | smembers => exact (advance_counts ht (.inl rfl)).1
  | existsHeartbeat d rest n stale => exact (advance_counts ht (.inr ⟨d, rest, n, stale, rfl⟩)).1
  | settle left => cases ht
  | expire => cases ht
  | _ =>
    obtain rfl := Option.some.inj ht
    exact id

theorem unregisters_of_advance (ht : (t.advance r).2 = some t') (h : t'.Unregisters c) : t.Unregisters c := by
  cases t with
  | smembers => exact absurd h (advance_counts ht (.inl rfl)).2.2
  | existsHeartbeat d rest n stale => exact absurd h (advance_counts ht (.inr ⟨d, rest, n, stale, rfl⟩)).2.2
  | settle left => cases ht
  | expire => cases ht
  | srem d =>
    obtain rfl := Option.some.inj ht
    exact h
  | _ =>
    obtain rfl := Option.some.inj ht
    exact h.elim

theorem not_removes_of_advance {d : Uuid} (h : t.Adds c ∨ t.Refreshes c)
    (ht : (t.advance r).2 = some t') : ¬ t'.Removes d := by
  cases t with
  | sadd b e =>
    obtain rfl := Option.some.inj ht
    exact id
  | setEx b e =>
    obtain rfl := Option.some.inj ht
    exact id
  | _ => exact (h.elim id id).elim

theorem removes_of_drops (h : t.Drops c) : t.Removes c := by
  cases t with
  | sremStale n stale => exact .inr h
  | srem d => exact h
  | settle left => exact h
  | _ => exact h.elim

theorem removes_of_unregisters (h : t.Unregisters c) : t.Removes c := by
  cases t with
  | srem d => exact h
  | delHeartbeat d => exact h
  | _ => exact h.elim

theorem notMem_of_drops (h : t.Drops c) : c ∉ (t.advance r).1.connections := by
  cases t with
  | srem d => exact fun hmem => (PresenceRegistry.mem_srem.1 hmem).2 (List.mem_singleton.2 (Eq.symm h))
  | sremStale n stale => exact fun hmem => (PresenceRegistry.mem_srem.1 hmem).2 h
  | settle left =>
    simp only [advance]
    rw [if_pos (show left = 0 from h)]
    exact List.not_mem_nil
  | _ => exact h.elim

theorem alive_advance_of_alive (h : r.Alive c) (hu : ¬ t.Unregisters c) : (t.advance r).1.Alive c := by
  cases t with
  | setEx b d => exact PresenceRegistry.alive_setEx.2 (.inr h)
  | delHeartbeat d => exact PresenceRegistry.alive_delHeartbeat.2 ⟨fun hc => hu hc.symm, h⟩
  | settle left =>
    simp only [advance]
    split <;> exact h
  | _ => exact h

theorem alive_advance_of_refreshes (h : t.Refreshes c) : (t.advance r).1.Alive c := by
  cases t with
  | setEx b d => exact PresenceRegistry.alive_setEx.2 (.inl h.symm)
  | _ => exact h.elim

theorem removes_of_advance (ht : (t.advance r).2 = some t') (h : t'.Removes c) (hmem : c ∈ r.connections)
    (hfound : ∀ d rest n stale, t = .existsHeartbeat d rest n stale → r.Alive d) : t.Removes c := by
  cases t with
  | srem d =>
    obtain rfl := Option.some.inj ht
    exact h
  | scard =>
    obtain rfl := Option.some.inj ht
    exact absurd hmem (List.eq_nil_of_length_eq_zero h ▸ List.not_mem_nil)
  | smembers =>
    simp only [advance] at ht
    rw [if_neg (List.ne_nil_of_mem hmem)] at ht
    obtain rfl := Option.some.inj ht
    unfold checkRest at h
    split at h
    · exact absurd h List.not_mem_nil
    · next hnil => exact absurd hmem (hnil ▸ List.not_mem_nil)
  | existsHeartbeat d rest n stale =>
    simp only [advance] at ht
    rw [if_pos (hfound d rest n stale rfl)] at ht
    obtain rfl := Option.some.inj ht
    unfold checkRest at h
    split at h
    · exact h
    · split at h
      · exact absurd h (Nat.succ_ne_zero n)
      · exact h.resolve_left (Nat.succ_ne_zero n)
  | sremStale n stale =>
    obtain rfl := Option.some.inj ht
    exact .inl h
  | settle left => cases ht
  | expire => cases ht
  | _ =>
    obtain rfl := Option.some.inj ht
    exact h.elim

/-- More than the commands that are left, when the set has `members` elements. -/
def weight (members : Nat) : RegistryTask → Nat
  | .sadd _ _ => 3
  | .setEx _ _ => 2
  | .expire => 1
  | .srem _ => 4
  | .delHeartbeat _ => 3
  | .scard => 2
  | .smembers => 2 * members + 5
  | .existsHeartbeat _ rest _ _ => 2 * rest.length + 5
  | .sremStale _ _ => 2
  | .settle _ => 1

theorem weight_checkRest (rest stale : List Uuid) (n members : Nat) :
    (checkRest rest n stale).weight members ≤ 2 * rest.length + 3 := by
  unfold checkRest
  split
  · simp only [weight, List.length_cons]
    omega
  · split
    · simp [weight]
    · simp [weight]

theorem weight_advance (members : Nat) (hm : t = .smembers → members = r.connections.length) :
    (t.advance r).2.elim 0 (weight members) < t.weight members := by
  cases t with
  | smembers =>
    obtain rfl := hm rfl
    simp only [advance]
    split
    · simp [weight]
    · show (checkRest r.connections 0 []).weight _ < 2 * r.connections.length + 5
      have hle := weight_checkRest r.connections [] 0 r.connections.length
      omega
  | existsHeartbeat d rest n stale =>
    show (if r.Alive d then checkRest rest (n + 1) stale else checkRest rest n (stale ++ [d])).weight _ < 2 * rest.length + 5
    split
    · have hle := weight_checkRest rest stale (n + 1) members
      omega
    · have hle := weight_checkRest rest (stale ++ [d]) n members
      omega
  | _ => simp [advance, weight]

end RegistryTask

/-! ### Interleaved tasks -/

structure RegistryState where
  registry : PresenceRegistry
  inProgress : Assoc Nat RegistryTask
  -- whether the last call for the connection was to register or to unregister it
  registered : Assoc Uuid Bool

inductive RegistryOp where
  | register (task : Nat) (connectionId : Uuid)
  | heartbeat (task : Nat) (connectionId : Uuid)
  | unregister (task : Nat) (connectionId : Uuid)
  | count (task : Nat)
  | advance (task : Nat)
  | pass (millis : Nat)

namespace RegistryState

open RegistryTask Assoc

def init (registry : PresenceRegistry) : RegistryState := ⟨registry, ∅, ∅⟩

def start (s : RegistryState) (task : Nat) (t : RegistryTask) : Option RegistryState :=
  if (s.inProgress.lookup task).isSome then none else some { s with inProgress := s.inProgress.insert task t }

def advance (s : RegistryState) (task : Nat) (t : RegistryTask) : RegistryState :=
  { s with
    registry := (t.advance s.registry).1
    inProgress := Assoc.replace task (t.advance s.registry).2 s.inProgress }

def step (s : RegistryState) : RegistryOp → Option RegistryState
  | .register task connectionId =>
    -- the id is a new one
    if (s.registered.lookup connectionId).isSome then none
    else { s with registered := s.registered.insert connectionId true }.start task (register connectionId)
  | .heartbeat task connectionId => s.start task (heartbeat connectionId)
  | .unregister task connectionId =>
    { s with registered := s.registered.insert connectionId false }.start task (unregister connectionId)
  | .count task => s.start task count
  | .advance task => (s.inProgress.lookup task).map (s.advance task)
  | .pass millis => some { s with registry := s.registry.pass millis }

/-- With no operation in progress, a registered connection with a heartbeat key is in the set, and an unregistered
one does not count as alive. -/
def Law (s : RegistryState) : Prop :=
  s.inProgress = ∅ → ∀ c,
    (s.registered.lookup c = some true → s.registry.Alive c → c ∈ s.registry.connections) ∧
      (s.registered.lookup c = some false → ¬ (c ∈ s.registry.connections ∧ s.registry.Alive c))

/-- A registered connection with a heartbeat key, or about to get one, that no task puts into the set any more. -/
def Exposed (s : RegistryState) (registry : PresenceRegistry) (c : Uuid) : Prop :=
  s.registered.lookup c = some true ∧ (registry.Alive c ∨ Any (Refreshes c) s.inProgress) ∧
    ¬ Any (Adds c) s.inProgress

/-- The commands come in the right state: what drops members of the set drops no exposed one, and what puts an
unregistered connection back leaves it without heartbeat key, outside the set or to be removed. -/
def Orderly (s : RegistryState) : RegistryOp → Prop
  | .advance task => ∀ t, s.inProgress.lookup task = some t → ∀ c,
    (t.Drops c → c ∈ s.registry.connections → ¬ s.Exposed s.registry c) ∧
      (s.registered.lookup c = some false → t.Adds c → s.registry.Alive c → Any (Removes c) s.inProgress) ∧
      (s.registered.lookup c = some false → t.Refreshes c → c ∈ s.registry.connections → Any (Removes c) s.inProgress)
  | .pass millis => s.registry.Expires millis → ∀ c ∈ s.registry.connections, ¬ s.Exposed (s.registry.pass millis) c
  | _ => True

structure Inv (s : RegistryState) : Prop where
  kept : ∀ c, s.registered.lookup c = some true → s.registry.Alive c ∨ Any (Refreshes c) s.inProgress →
    c ∈ s.registry.connections ∨ Any (Adds c) s.inProgress
  gone : ∀ c, s.registered.lookup c = some false → c ∈ s.registry.connections → s.registry.Alive c →
    Any (Removes c) s.inProgress

theorem Inv.law {s : RegistryState} (h : s.Inv) : s.Law := by
  intro hidle c
  have hnone : ∀ p, ¬ Any p s.inProgress := by
    rw [hidle]
    exact fun p => Assoc.not_any_empty
  refine ⟨fun hr ha => (h.kept c hr (.inl ha)).resolve_right (hnone _), fun hr => ?_⟩
  rintro ⟨hmem, ha⟩
  exact hnone _ (h.gone c hr hmem ha)

theorem inv_init (registry : PresenceRegistry) : (init registry).Inv where
  kept := by
    intro c hr
    cases hr
  gone := by
    intro c hr
    cases hr

variable {s s' : RegistryState} {task : Nat} {t : RegistryTask} {c : Uuid} {op : RegistryOp}

theorem start_eq_some :
    s.start task t = some s' ↔ s.inProgress.lookup task = none ∧
      s' = { s with inProgress := s.inProgress.insert task t } := by
  unfold start
  cases s.inProgress.lookup task with
  | none => simp [eq_comm]
  | some t => simp

/-- A new task that does not set a heartbeat key at once, with the calls of the connections it is about recorded. -/
theorem Inv.start {registered : Assoc Uuid Bool} (h : s.Inv) (hnew : s.inProgress.lookup task = none)
    (ht : ∀ c, ¬ t.Refreshes c)
    (hold : ∀ c b, registered.lookup c = some b → s.registered.lookup c = some b ∨ if b then t.Adds c else t.Removes c) :
    Inv { s with registered, inProgress := s.inProgress.insert task t } := by
  have hany : ∀ p, Any p (s.inProgress.insert task t) ↔ p t ∨ Any p s.inProgress :=
    fun p => Assoc.any_insert_new hnew
  constructor
  · intro c hr ha
    show c ∈ s.registry.connections ∨ Any _ (s.inProgress.insert task t)
    rw [hany]
    change s.registry.Alive c ∨ Any _ (s.inProgress.insert task t) at ha
    rw [hany, or_iff_right (ht c)] at ha
    rcases hold c true hr with hr | hadd
    · exact (h.kept c hr ha).imp_right .inr
    · exact .inr (.inl hadd)
  · intro c hr hmem ha
    show Any _ (s.inProgress.insert task t)
    rw [hany]
    rcases hold c false hr with hr | hrem
    · exact .inr (h.gone c hr hmem ha)
    · exact .inl hrem

theorem Inv.advance (h : s.Inv) (ho : s.Orderly (.advance task)) (hs : s.step (.advance task) = some s') :
    s'.Inv := by
  obtain ⟨t, hl, rfl⟩ := Option.map_eq_some_iff.1 hs
  have hadds : ∀ {c}, Any (Adds c) s.inProgress → ¬ t.Adds c →
      Any (Adds c) (Assoc.replace task (t.advance s.registry).2 s.inProgress) :=
    fun hany hno => hany.replace hl fun ht => absurd ht hno
  constructor
  · intro c hr ha
    by_cases hadd : t.Adds c
    · exact .inl (mem_advance_of_adds hadd)
    · have hbefore : s.registry.Alive c ∨ Any (Refreshes c) s.inProgress := by
        rcases ha with ha | ha
        · exact (alive_advance ha).imp_right fun hrefreshes => ⟨task, t, hl, hrefreshes⟩
        · rcases ha.of_replace with ⟨t', ht', hrefreshes⟩ | ha
          · exact absurd (adds_of_advance ht' hrefreshes) hadd
          · exact .inr ha
      by_cases hany : Any (Adds c) s.inProgress
      · exact .inr (hadds hany hadd)
      · have hmem := (h.kept c hr hbefore).resolve_right hany
        refine .inl (mem_advance_of_mem hmem fun hdrops => ?_)
        exact ((ho t hl c).1 hdrops hmem) ⟨hr, hbefore, hany⟩
  · intro c hr hmem ha
    have hany : Any (Removes c) s.inProgress := by
      rcases mem_advance hmem with hmem' | hadd
      · rcases alive_advance ha with ha' | hrefreshes
        · exact h.gone c hr hmem' ha'
        · exact (ho t hl c).2.2 hr hrefreshes hmem'
      · rcases alive_advance ha with ha' | hrefreshes
        · exact (ho t hl c).2.1 hr hadd ha'
        · cases t <;> first | exact hadd.elim | exact hrefreshes.elim
    exact hany.replace hl fun hrem => removes_advance hrem hmem ha

theorem Inv.pass {millis : Nat} (h : s.Inv) (ho : s.Orderly (.pass millis)) :
    Inv { s with registry := s.registry.pass millis } := by
  constructor
  · intro c hr ha
    rcases h.kept c hr (ha.imp_left PresenceRegistry.Alive.of_pass) with hmem | hany
    · by_cases hexp : s.registry.Expires millis
      · right
        by_contra hany
        exact ho hexp c hmem ⟨hr, ha, hany⟩
      · left
        show c ∈ (s.registry.pass millis).connections
        rwa [PresenceRegistry.pass, if_neg hexp]
    · exact .inr hany
  · intro c hr hmem ha
    exact h.gone c hr (PresenceRegistry.mem_of_pass hmem) ha.of_pass

theorem Inv.step (h : s.Inv) (ho : s.Orderly op) (hs : s.step op = some s') : s'.Inv := by
  cases op with
  | register task c =>
    rw [step] at hs
    split at hs
    · cases hs
    · obtain ⟨hl, rfl⟩ := start_eq_some.1 hs
      refine h.start hl (fun _ => id) fun d b hd => ?_
      rcases Assoc.lookup_insert_cases hd with ⟨hdc, rfl⟩ | ⟨-, hd⟩
      · exact .inr hdc.symm
      · exact .inl hd
  | heartbeat task c =>
    obtain ⟨hl, rfl⟩ := start_eq_some.1 hs
    exact h.start hl (fun _ => id) fun d b hd => .inl hd
  | unregister task c =>
    obtain ⟨hl, rfl⟩ := start_eq_some.1 hs
    refine h.start hl (fun _ => id) fun d b hd => ?_
    rcases Assoc.lookup_insert_cases hd with ⟨hdc, rfl⟩ | ⟨-, hd⟩
    · exact .inr hdc.symm
    · exact .inl hd
  | count task =>
    obtain ⟨hl, rfl⟩ := start_eq_some.1 hs
    exact h.start hl (fun _ => id) fun d b hd => .inl hd
  | advance task => exact h.advance ho hs
  | pass millis =>
    obtain rfl := Option.some.inj hs
    exact h.pass ho

/-! ### Commands in the wrong state -/

theorem step_advance (hl : s.inProgress.lookup task = some t) :
    s.step (.advance task) = some (s.advance task t) := by
  rw [step, hl]
  rfl

theorem lookup_advance {k : Nat} : (s.advance task t).inProgress.lookup k =
    if k = task then (t.advance s.registry).2 else s.inProgress.lookup k := Assoc.lookup_replace

def Counting (s : RegistryState) : Prop := Any (· = .smembers) s.inProgress

def weight (s : RegistryState) : Nat :=
  Assoc.total (RegistryTask.weight s.registry.connections.length) s.inProgress

theorem Counting.of_advance (h : (s.advance task t).Counting) : s.Counting := by
  rcases Any.of_replace h with ⟨t', ht, rfl⟩ | h
  · cases t with
    | smembers =>
      simp only [RegistryTask.advance, checkRest] at ht
      grind
    | existsHeartbeat d rest n stale =>
      simp only [RegistryTask.advance, checkRest] at ht
      grind
    | _ => cases ht
  · exact h

theorem weight_eq_of_not_counting (h : ¬ s.Counting) (members : Nat) :
    s.weight = Assoc.total (RegistryTask.weight members) s.inProgress := by
  refine Assoc.total_congr fun k t hl => ?_
  cases t with
  | smembers => exact absurd ⟨k, _, hl, rfl⟩ h
  | _ => rfl

theorem weight_advance_add (hl : s.inProgress.lookup task = some t) (hcount : ¬ s.Counting) :
    (s.advance task t).weight + t.weight 0 = s.weight + (t.advance s.registry).2.elim 0 (RegistryTask.weight 0) := by
  rw [weight_eq_of_not_counting hcount 0,
    weight_eq_of_not_counting (fun h => hcount (Counting.of_advance h)) 0]
  exact Assoc.total_replace hl

theorem weight_advance_lt (hl : s.inProgress.lookup task = some t) (hcount : t = .smembers ∨ ¬ s.Counting) :
    (s.advance task t).weight < s.weight := by
  rcases hcount with rfl | hcount
  · have hlt := RegistryTask.weight_advance (r := s.registry) (t := .smembers) s.registry.connections.length fun _ => rfl
    have hadd := Assoc.total_replace (f := RegistryTask.weight s.registry.connections.length)
      (o := (RegistryTask.advance s.registry .smembers).2) hl
    show Assoc.total (RegistryTask.weight s.registry.connections.length) (Assoc.replace task _ s.inProgress) <
      Assoc.total (RegistryTask.weight s.registry.connections.length) s.inProgress
    omega
  · have hne : t ≠ .smembers := by
      rintro rfl
      exact hcount ⟨task, _, hl, rfl⟩
    have hlt := RegistryTask.weight_advance (r := s.registry) (t := t) 0 fun heq => absurd heq hne
    have hadd := weight_advance_add hl hcount
    omega

/-- What can be kept while the tasks in progress go on, the counts first, can be had when they are finished. -/
theorem exists_idle {Q : RegistryState → Prop}
    (h : ∀ s task t, s.inProgress.lookup task = some t → t = .smembers ∨ ¬ s.Counting → Q s →
      ∃ ops s', Run.exec step s ops = some s' ∧ Q s' ∧ s'.weight < s.weight) (hs : Q s) :
    ∃ ops s', Run.exec step s ops = some s' ∧ Q s' ∧ s'.inProgress = ∅ := by
  refine Run.exists_exec weight (fun s hq hne => ?_) hs
  by_cases hcount : s.Counting
  · obtain ⟨task, t, hl, rfl⟩ := hcount
    exact h s task _ hl (.inl rfl) hq
  · obtain ⟨e, he⟩ := List.exists_mem_of_ne_nil s.inProgress.entries fun hnil => hne (AList.ext hnil)
    exact h s e.1 e.2 (Assoc.mem_entries_iff.1 he) (.inr hcount) hq

def Told (s : RegistryState) : Prop :=
  ∀ c, Any (Unregisters c) s.inProgress → s.registered.lookup c = some false

theorem Told.advance (h : s.Told) (hl : s.inProgress.lookup task = some t) : (s.advance task t).Told := by
  intro c hany
  rcases Any.of_replace hany with ⟨t', ht, hc⟩ | hany
  · exact h c ⟨task, t, hl, unregisters_of_advance ht hc⟩
  · exact h c hany

theorem Told.step (h : s.Told) (hs : s.step op = some s') : s'.Told := by
  have hstart : ∀ (registered : Assoc Uuid Bool) task t, s.inProgress.lookup task = none →
      (∀ c, t.Unregisters c ∨ s.registered.lookup c = some false → registered.lookup c = some false) →
      Told { s with registered, inProgress := s.inProgress.insert task t } := by
    intro registered task t hl hreg c hany
    rcases (Assoc.any_insert_new hl).1 hany with hc | hany
    · exact hreg c (.inl hc)
    · exact hreg c (.inr (h c hany))
  cases op with
  | register task c =>
    rw [RegistryState.step] at hs
    split at hs
    · cases hs
    · next hnew =>
      obtain ⟨hl, rfl⟩ := start_eq_some.1 hs
      refine hstart _ _ _ hl fun d hd => ?_
      have hfalse := hd.resolve_left id
      rw [Assoc.lookup_insert_eq, if_neg, hfalse]
      rintro rfl
      exact hnew (by rw [hfalse]; rfl)
  | heartbeat task c =>
    obtain ⟨hl, rfl⟩ := start_eq_some.1 hs
    exact hstart _ _ _ hl fun d hd => hd.resolve_left id
  | unregister task c =>
    obtain ⟨hl, rfl⟩ := start_eq_some.1 hs
    refine hstart _ _ _ hl fun d hd => ?_
    rw [Assoc.lookup_insert_eq]
    split
    · rfl
    · next hdc => exact hd.resolve_left fun hd => hdc (Eq.symm hd)
  | count task =>
    obtain ⟨hl, rfl⟩ := start_eq_some.1 hs
    exact hstart _ _ _ hl fun d hd => hd.resolve_left id
  | advance task =>
    obtain ⟨t, hl, rfl⟩ := Option.map_eq_some_iff.1 hs
    exact h.advance hl
  | pass millis =>
    obtain rfl := Option.some.inj hs
    exact h

/-- A registered connection that stays out of the set. -/
structure Lost (c : Uuid) (s : RegistryState) : Prop where
  told : s.Told
  registered : s.registered.lookup c = some true
  alive : s.registry.Alive c ∨ Any (Refreshes c) s.inProgress
  adds : ¬ Any (Adds c) s.inProgress
  notMem : c ∉ s.registry.connections

theorem alive_or_refreshes_advance (hl : s.inProgress.lookup task = some t) (hu : ¬ t.Unregisters c)
    (h : s.registry.Alive c ∨ Any (Refreshes c) s.inProgress) :
    (s.advance task t).registry.Alive c ∨ Any (Refreshes c) (s.advance task t).inProgress := by
  rcases h with ha | hany
  · exact .inl (alive_advance_of_alive ha hu)
  · by_cases hrefreshes : t.Refreshes c
    · exact .inl (alive_advance_of_refreshes hrefreshes)
    · exact .inr (hany.replace hl fun ht => absurd ht hrefreshes)

theorem not_adds_advance (h : ¬ Any (Adds c) s.inProgress) :
    ¬ Any (Adds c) (s.advance task t).inProgress := by
  intro hany
  rcases Any.of_replace hany with ⟨t', ht, hc⟩ | hany
  · exact not_adds_of_advance ht hc
  · exact h hany

theorem Lost.advance (h : s.Lost c) (hl : s.inProgress.lookup task = some t) : (s.advance task t).Lost c where
  told := h.told.advance hl
  registered := h.registered
  alive := by
    refine alive_or_refreshes_advance hl (fun hu => ?_) h.alive
    have hfalse := h.told c ⟨task, t, hl, hu⟩
    rw [h.registered] at hfalse
    cases hfalse
  adds := not_adds_advance h.adds
  notMem := fun hmem => (mem_advance hmem).elim h.notMem fun hadds => h.adds ⟨task, t, hl, hadds⟩

theorem Lost.exists_disagreement (h : s.Lost c) : ∃ ops s', Run.exec step s ops = some s' ∧ ¬ s'.Law := by
  obtain ⟨ops, s', hexec, hlost, hidle⟩ := exists_idle (fun s task t hl hcount (hq : s.Lost c) =>
    ⟨[.advance task], _, Run.exec_singleton.trans (step_advance hl), hq.advance hl,
      weight_advance_lt hl hcount⟩) h
  refine ⟨ops, s', hexec, fun hlaw => hlost.notMem ((hlaw hidle c).1 hlost.registered ?_)⟩
  refine hlost.alive.resolve_right fun hany => ?_
  rw [hidle] at hany
  exact Assoc.not_any_empty hany

/-- An unregistered connection that goes on counting as alive. -/
structure Back (c : Uuid) (s : RegistryState) : Prop where
  registered : s.registered.lookup c = some false
  mem : c ∈ s.registry.connections
  alive : s.registry.Alive c
  removes : ¬ Any (Removes c) s.inProgress

theorem Back.advance (h : s.Back c) (hl : s.inProgress.lookup task = some t)
    (hfound : ∀ d rest n stale, t = .existsHeartbeat d rest n stale → s.registry.Alive d) :
    (s.advance task t).Back c where
  registered := h.registered
  mem := mem_advance_of_mem h.mem fun hdrops => h.removes ⟨task, t, hl, removes_of_drops hdrops⟩
  alive := alive_advance_of_alive h.alive fun hu => h.removes ⟨task, t, hl, removes_of_unregisters hu⟩
  removes := by
    intro hany
    rcases Any.of_replace hany with ⟨t', ht, hc⟩ | hany
    · exact h.removes ⟨task, t, hl, removes_of_advance ht hc h.mem hfound⟩
    · exact h.removes hany

/-- A heartbeat of the connection that a count asks for keeps the count from deleting the set. -/
theorem Back.exists_advance (h : s.Back c) (hl : s.inProgress.lookup task = some t) (hcount : t = .smembers ∨ ¬ s.Counting) :
    ∃ ops s', Run.exec step s ops = some s' ∧ s'.Back c ∧ s'.weight < s.weight := by
  by_cases hexists : ∃ d rest n stale, t = .existsHeartbeat d rest n stale
  · obtain ⟨d, rest, n, stale, rfl⟩ := hexists
    have hcount := hcount.resolve_left nofun
    obtain ⟨k, hk⟩ := Assoc.exists_lookup_none s.inProgress
    have hne : task ≠ k := by
      rintro rfl
      rw [hk] at hl
      cases hl
    let s₁ : RegistryState := { s with inProgress := s.inProgress.insert k (heartbeat d) }
    let s₂ := s₁.advance k (.sadd true d)
    let s₃ := s₂.advance k (.setEx true d)
    have hl₁ : s₁.inProgress.lookup k = some (.sadd true d) := Assoc.lookup_insert_self
    have hl₂ : s₂.inProgress.lookup k = some (.setEx true d) := lookup_advance.trans (if_pos rfl)
    have hl₃ : s₃.inProgress.lookup task = some (.existsHeartbeat d rest n stale) := by
      rw [lookup_advance, if_neg hne, lookup_advance, if_neg hne]
      exact Assoc.lookup_insert_eq.trans ((if_neg hne).trans hl)
    have hcount₁ : ¬ s₁.Counting := fun hc => hcount (((Assoc.any_insert_new hk).1 hc).resolve_left nofun)
    have hcount₂ : ¬ s₂.Counting := fun hc => hcount₁ hc.of_advance
    have hcount₃ : ¬ s₃.Counting := fun hc => hcount₂ hc.of_advance
    have hback₁ : s₁.Back c :=
      ⟨h.registered, h.mem, h.alive, fun hany => h.removes (((Assoc.any_insert_new hk).1 hany).resolve_left id)⟩
    have hback₃ : s₃.Back c := (hback₁.advance hl₁ nofun).advance hl₂ nofun
    have halive : s₃.registry.Alive d := PresenceRegistry.alive_setEx.2 (.inl rfl)
    refine ⟨[.heartbeat k d, .advance k, .advance k, .advance task], s₃.advance task (.existsHeartbeat d rest n stale), ?_,
      hback₃.advance hl₃ ?_, ?_⟩
    · rw [Run.exec_cons, show s.step (.heartbeat k d) = some s₁ from start_eq_some.2 ⟨hk, rfl⟩, Option.bind_some,
        Run.exec_cons, step_advance hl₁, Option.bind_some, Run.exec_cons, step_advance hl₂, Option.bind_some,
        Run.exec_singleton]
      exact step_advance hl₃
    · rintro d' rest' n' stale' heq
      obtain ⟨rfl, -⟩ := RegistryTask.existsHeartbeat.inj heq
      exact halive
    · have hw₁ : s₁.weight = 3 + s.weight := by
        rw [weight_eq_of_not_counting hcount₁ 0, weight_eq_of_not_counting hcount 0]
        exact Assoc.total_insert_new hk
      have hw₂ : s₂.weight + 3 = s₁.weight + 2 := weight_advance_add hl₁ hcount₁
      have hw₃ : s₃.weight + 2 = s₂.weight + 1 := weight_advance_add hl₂ hcount₂
      have hw₄ := weight_advance_add hl₃ hcount₃
      have hle := RegistryTask.weight_checkRest rest stale (n + 1) 0
      simp only [RegistryTask.advance] at hw₄
      rw [if_pos halive] at hw₄
      change _ + (2 * rest.length + 5) = _ + (checkRest rest (n + 1) stale).weight 0 at hw₄
      omega
  · refine ⟨[.advance task], _, Run.exec_singleton.trans (step_advance hl), h.advance hl ?_,
      weight_advance_lt hl hcount⟩
    rintro d rest n stale rfl
    exact absurd ⟨d, rest, n, stale, rfl⟩ hexists

theorem Back.exists_disagreement (h : s.Back c) : ∃ ops s', Run.exec step s ops = some s' ∧ ¬ s'.Law := by
  obtain ⟨ops, s', hexec, hback, hidle⟩ :=
    exists_idle (fun s task t hl hcount (hq : s.Back c) => hq.exists_advance hl hcount) h
  exact ⟨ops, s', hexec, fun hlaw => (hlaw hidle c).2 hback.registered ⟨hback.mem, hback.alive⟩⟩

/-- A command in the wrong state can be followed by a state without operations in progress that breaks the law. -/
theorem exists_disagreement (htold : s.Told) (h : ¬ s.Orderly op) (hs : s.step op = some s') :
    ∃ ops t, Run.exec step s' ops = some t ∧ ¬ t.Law := by
  cases op with
  | advance task =>
    obtain ⟨t, hl, rfl⟩ := Option.map_eq_some_iff.1 hs
    obtain ⟨c, hc⟩ : ∃ c, ¬ ((t.Drops c → c ∈ s.registry.connections → ¬ s.Exposed s.registry c) ∧
        (s.registered.lookup c = some false → t.Adds c → s.registry.Alive c → Any (Removes c) s.inProgress) ∧
        (s.registered.lookup c = some false → t.Refreshes c → c ∈ s.registry.connections →
          Any (Removes c) s.inProgress)) := by
      by_contra hno
      refine h fun t' ht' c => ?_
      obtain rfl := Option.some.inj (hl.symm.trans ht')
      by_contra hc
      exact hno ⟨c, hc⟩
    by_cases hdrop : t.Drops c ∧ c ∈ s.registry.connections ∧ s.Exposed s.registry c
    · obtain ⟨hdrops, -, hr, ha, hadds⟩ := hdrop
      have hu : ¬ t.Unregisters c := by
        intro hu
        have hfalse := htold c ⟨task, t, hl, hu⟩
        rw [hr] at hfalse
        cases hfalse
      exact Lost.exists_disagreement (c := c) ⟨htold.advance hl, hr, alive_or_refreshes_advance hl hu ha,
        not_adds_advance hadds, notMem_of_drops hdrops⟩
    · have hback : s.registered.lookup c = some false ∧ ¬ Any (Removes c) s.inProgress ∧
          (t.Adds c ∧ s.registry.Alive c ∨ t.Refreshes c ∧ c ∈ s.registry.connections) := by
        by_contra hno
        refine hc ⟨fun h₁ h₂ h₃ => hdrop ⟨h₁, h₂, h₃⟩, fun hr hadd ha => ?_, fun hr hrefreshes hmem => ?_⟩
        · by_contra hany
          exact hno ⟨hr, hany, .inl ⟨hadd, ha⟩⟩
        · by_contra hany
          exact hno ⟨hr, hany, .inr ⟨hrefreshes, hmem⟩⟩
      obtain ⟨hr, hany, hputs⟩ := hback
      refine Back.exists_disagreement (c := c) ⟨hr, ?_, ?_, fun hany' => ?_⟩
      · rcases hputs with ⟨hadd, -⟩ | ⟨-, hmem⟩
        · exact mem_advance_of_adds hadd
        · exact mem_advance_of_mem hmem fun hdrops => hany ⟨task, t, hl, removes_of_drops hdrops⟩
      · rcases hputs with ⟨-, ha⟩ | ⟨hrefreshes, -⟩
        · exact alive_advance_of_alive ha fun hu => hany ⟨task, t, hl, removes_of_unregisters hu⟩
        · exact alive_advance_of_refreshes hrefreshes
      · rcases Any.of_replace hany' with ⟨t', ht, hrem⟩ | hany'
        · exact not_removes_of_advance (hputs.imp And.left And.left) ht hrem
        · exact hany hany'
  | pass millis =>
    obtain rfl := Option.some.inj hs
    obtain ⟨hexp, hc⟩ := Classical.not_imp.1 h
    obtain ⟨c, hc⟩ := not_forall.1 hc
    obtain ⟨hmem, hexposed⟩ := Classical.not_imp.1 hc
    obtain ⟨hr, ha, hadds⟩ := not_not.1 hexposed
    refine Lost.exists_disagreement (c := c) ⟨htold, hr, ha, hadds, ?_⟩
    show c ∉ (s.registry.pass millis).connections
    rw [PresenceRegistry.pass, if_pos hexp]
    exact List.not_mem_nil
  | _ => exact absurd trivial h

/-- In a run whose commands all come in the right state the registry agrees with the calls in every state. Any
other command of a run can be followed by a state where it does not. -/
theorem agree_of_orderly (registry : PresenceRegistry) (ops : List RegistryOp) :
    (Run.AllSteps step Orderly (init registry) ops → Run.AllStates step Law (init registry) ops) ∧
      ∀ s op s', Run.exec step (init registry) ops = some s → s.step op = some s' → ¬ s.Orderly op →
        ∃ ops' t, Run.exec step s' ops' = some t ∧ ¬ t.Law := by
  refine ⟨fun ho => ?_, fun s op s' hexec hs h => exists_disagreement ?_ h hs⟩
  · have hinv : ∀ s op s', Inv s → s.Orderly op → s.step op = some s' → Inv s' :=
      fun _ _ _ h ho hs => h.step ho hs
    exact (Run.allStates_of_allSteps hinv (inv_init registry) ho).mono fun s h => h.law
  · refine Run.invariant_last (fun _ _ _ h hs => Told.step h hs) ?_ hexec
    exact fun c hany => absurd hany Assoc.not_any_empty

/-- Connection `7` registers, and a count looks for its heartbeat key before it is there. -/
def countDuringRegister : List RegistryOp :=
  [.register 0 7, .advance 0, .count 1, .advance 1, .advance 1, .advance 0, .advance 0, .advance 1,
    .advance 1]

theorem count_drops_registered :
    ∃ s, Run.exec step (init (.new 0)) countDuringRegister = some s ∧ ¬ s.Law := by
  refine ⟨_, rfl, fun hlaw => ?_⟩
  exact List.not_mem_nil ((hlaw rfl 7).1 rfl rfl)

end RegistryState

end Rustchat
