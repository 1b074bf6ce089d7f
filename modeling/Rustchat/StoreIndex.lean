import Rustchat.ConnStore

/-!
# The user index of the connection store (`realtime/connection_store.rs`)

`user_connections` lists the connection ids of every user. Over all runs of the store it is the inverse of
the owners of the stored connections (`StoreState.IndexOk`). A removal filters the list of the owner and
leaves it in the map when it is empty, and `stats` counts the lists, so `unique_users` is the number of
owners exactly as long as no removal takes the last connection of a user (`StoreState.uniqueUsers_iff_keepsOwners`).
-/

namespace Rustchat

structure ConnectionStoreStats where
  totalConnections : Nat
  activeConnections : Nat
  inactiveConnections : Nat
  uniqueUsers : Nat
deriving DecidableEq

namespace ConnectionStore

variable {V : Type*}

def getUserConnections (store : ConnectionStore V) (userId : Uuid) : List String :=
  (store.userConnections.lookup userId).getD []

def stats (store : ConnectionStore V) : ConnectionStoreStats where
  totalConnections := store.connections.entries.length
  activeConnections := (store.connections.entries.filter fun e => e.2.isActive).length
  inactiveConnections := (store.connections.entries.filter fun e => !e.2.isActive).length
  uniqueUsers := store.userConnections.keys.length

def owner (store : ConnectionStore V) (id : String) : Option Uuid :=
  (store.connections.lookup id).map ConnectionState.userId

def owners (store : ConnectionStore V) : List Uuid :=
  (store.connections.entries.map fun e => e.2.userId).dedup

/-- Every stored connection is listed once, by its owner, and nothing else is listed. -/
structure IndexOk (store : ConnectionStore V) : Prop where
  mem_iff : ∀ u id, id ∈ store.getUserConnections u ↔ store.owner id = some u
  nodup : ∀ u, (store.getUserConnections u).Nodup

variable {store : ConnectionStore V} {id connId newConnId : String} {userId u : Uuid} {now : Instant}

theorem mem_owners : u ∈ store.owners ↔ ∃ id, store.owner id = some u := by
  simp only [owners, List.mem_dedup, List.mem_map, owner, Option.map_eq_some_iff]
  constructor
  · rintro ⟨⟨id, c⟩, he, rfl⟩
    exact ⟨id, c, Assoc.mem_entries_iff.1 he, rfl⟩
  · rintro ⟨id, c, hc, rfl⟩
    exact ⟨⟨id, c⟩, Assoc.mem_entries_iff.2 hc, rfl⟩

theorem mem_keys_of_mem (h : id ∈ store.getUserConnections u) : u ∈ store.userConnections.keys := by
  unfold getUserConnections at h
  cases hl : store.userConnections.lookup u with
  | none =>
    rw [hl] at h
    cases h
  | some ids => exact AList.mem_keys.1 (AList.lookup_isSome.1 (by rw [hl]; rfl))

theorem IndexOk.uniqueUsers_iff (h : store.IndexOk) :
    store.stats.uniqueUsers = store.owners.length ↔
      ∀ u ∈ store.userConnections.keys, ∃ id, store.owner id = some u := by
  have hsub : store.owners.Subperm store.userConnections.keys := by
    refine (List.nodup_dedup _).subperm fun u hu => ?_
    obtain ⟨id, hid⟩ := mem_owners.1 hu
    exact mem_keys_of_mem ((h.mem_iff u id).2 hid)
  constructor
  · intro hlen u hu
    have hperm := hsub.perm_of_length_le (Nat.le_of_eq hlen)
    exact mem_owners.1 (hperm.mem_iff.2 hu)
  · intro hall
    have hsub' : store.userConnections.keys.Subperm store.owners :=
      store.userConnections.keys_nodup.subperm fun u hu => mem_owners.2 (hall u hu)
    exact Nat.le_antisymm hsub'.length_le hsub.length_le

/-! ### What the operations do to the owners and the lists -/

theorem getUserConnections_create :
    (store.create userId newConnId now).2.getUserConnections u =
      if u = userId then store.getUserConnections u ++ [newConnId] else store.getUserConnections u := by
  show (AList.lookup u (store.userConnections.insert userId _)).getD [] = _
  rw [Assoc.lookup_insert_eq]
  split
  · subst u; rfl
  · rfl

theorem owner_create :
    (store.create userId newConnId now).2.owner id =
      if id = newConnId then some userId else store.owner id := by
  rw [owner, lookup_create]
  split <;> rfl

theorem IndexOk.create (h : store.IndexOk) (hnew : store.owner newConnId = none) :
    (store.create userId newConnId now).2.IndexOk := by
  have hunlisted (u : Uuid) : newConnId ∉ store.getUserConnections u := fun hm => by
    rw [h.mem_iff, hnew] at hm
    cases hm
  refine ⟨fun u id => ?_, fun u => ?_⟩
  · rw [getUserConnections_create, owner_create]
    by_cases hid : id = newConnId
    · subst id
      rw [if_pos rfl, Option.some.injEq]
      by_cases hu : u = userId
      · simp [hu]
      · simp [hu, hunlisted u, Ne.symm hu]
    · rw [if_neg hid, ← h.mem_iff]
      split
      · simp [hid]
      · rfl
  · rw [getUserConnections_create]
    split
    · exact List.nodup_append.2 ⟨h.nodup u, List.nodup_singleton _, fun x hx y hy => by
        rw [List.mem_singleton.1 hy]
        exact fun he => hunlisted u (he ▸ hx)⟩
    · exact h.nodup u

theorem owner_purge : (store.purge connId).owner id = if id = connId then none else store.owner id := by
  rw [owner, lookup_purge]
  split <;> rfl

theorem filter_ne_eq_self {ids : List String} (h : connId ∉ ids) :
    ids.filter (fun id => id ≠ connId) = ids := by
  refine List.filter_eq_self.2 fun id hid => decide_eq_true ?_
  rintro rfl
  exact h hid

theorem getUserConnections_purge (h : store.IndexOk) :
    (store.purge connId).getUserConnections u = (store.getUserConnections u).filter fun id => id ≠ connId := by
  cases hc : store.connections.lookup connId with
  | none =>
    have hout : connId ∉ store.getUserConnections u := fun hm => by
      rw [h.mem_iff, owner, hc] at hm
      cases hm
    rw [purge, hc, filter_ne_eq_self hout]
  | some c =>
    rw [purge, hc]
    show (AList.lookup u (Assoc.modify c.userId _ store.userConnections)).getD [] = _
    rw [Assoc.lookup_modify]
    by_cases hu : u = c.userId
    · rw [if_pos hu, ← hu, getUserConnections]
      cases store.userConnections.lookup u <;> rfl
    · have hout : connId ∉ store.getUserConnections u := fun hm => by
        rw [h.mem_iff, owner, hc] at hm
        exact hu (Option.some.inj hm).symm
      rw [if_neg hu, filter_ne_eq_self hout]
      rfl

theorem IndexOk.purge (h : store.IndexOk) (connId : String) : (store.purge connId).IndexOk := by
  refine ⟨fun u id => ?_, fun u => ?_⟩
  · rw [getUserConnections_purge h, owner_purge, List.mem_filter, h.mem_iff]
    by_cases hid : id = connId
    · simp [hid]
    · simp [hid]
  · rw [getUserConnections_purge h]
    exact (h.nodup u).filter _

theorem IndexOk.foldl_purge (h : store.IndexOk) (ids : List String) :
    (ids.foldl ConnectionStore.purge store).IndexOk := by
  induction ids generalizing store with
  | nil => exact h
  | cons connId ids ih => exact ih (h.purge connId)

theorem owner_foldl_purge (ids : List String) :
    (ids.foldl purge store).owner id = if id ∈ ids then none else store.owner id := by
  rw [owner, lookup_foldl_purge]
  split <;> rfl

theorem keys_purge : u ∈ (store.purge connId).userConnections.keys ↔ u ∈ store.userConnections.keys := by
  unfold purge
  cases store.connections.lookup connId with
  | none => rfl
  | some c => exact Assoc.mem_keys_modify

theorem keys_foldl_purge (ids : List String) :
    u ∈ (ids.foldl purge store).userConnections.keys ↔ u ∈ store.userConnections.keys := by
  induction ids generalizing store with
  | nil => rfl
  | cons connId ids ih => rw [List.foldl_cons, ih, keys_purge]

theorem owner_insert {c c' : ConnectionState V} (hc : store.connections.lookup connId = some c)
    (hu : c'.userId = c.userId) :
    ({ store with connections := store.connections.insert connId c' } : ConnectionStore V).owner id = store.owner id := by
  show (AList.lookup id (store.connections.insert connId c')).map _ = _
  rw [Assoc.lookup_insert_eq, owner]
  split
  · subst id
    rw [hc]
    exact congrArg some hu
  · rfl

theorem owner_queueMessage {event : V} :
    (store.queueMessage connId event now).2.owner id = store.owner id := by
  cases hc : store.connections.lookup connId with
  | none => rw [queueMessage_of_none hc]
  | some c =>
    rw [queueMessage_of_lookup hc]
    exact owner_insert hc rfl

theorem owner_disconnectConnection : (store.disconnectConnection connId now).owner id = store.owner id := by
  rw [owner, lookup_disconnectConnection, owner]
  split
  · subst id
    cases store.connections.lookup connId <;> rfl
  · rfl

theorem userConnections_queueMessage {event : V} :
    (store.queueMessage connId event now).2.userConnections = store.userConnections := by
  cases hc : store.connections.lookup connId with
  | none => rw [queueMessage_of_none hc]
  | some c => rw [queueMessage_of_lookup hc]

theorem IndexOk.congr {store' : ConnectionStore V} (h : store.IndexOk)
    (hu : store'.userConnections = store.userConnections) (ho : ∀ id, store'.owner id = store.owner id) :
    store'.IndexOk := by
  have hget (u : Uuid) : store'.getUserConnections u = store.getUserConnections u := by
    rw [getUserConnections, hu]
    rfl
  exact ⟨fun u id => by rw [hget, ho, h.mem_iff], fun u => by rw [hget]; exact h.nodup u⟩

end ConnectionStore

/-! ### Runs -/

namespace StoreState

variable {V : Type*} {s s' : StoreState V} {op : StoreOp V}

def Removes (s : StoreState V) (op : StoreOp V) (id : String) : Prop :=
  match op with
  | .removeConnection connectionId => id = connectionId
  | .cleanupExpired => id ∈ s.store.expiredIds s.now
  | _ => False

/-- Whoever owns a stored connection owns one that the operation leaves in the store. -/
def KeepsOwners (s : StoreState V) (op : StoreOp V) : Prop :=
  ∀ id u, s.store.owner id = some u → ∃ id', s.store.owner id' = some u ∧ ¬ s.Removes op id'

def UniqueUsersOk (s : StoreState V) : Prop := s.store.stats.uniqueUsers = s.store.owners.length

/-- The index is right, and a connection id that was never drawn is not stored. -/
structure Indexed (s : StoreState V) : Prop where
  index : s.store.IndexOk
  issued : ∀ id u, s.store.owner id = some u → id ∈ s.issued

theorem indexed_init : (init : StoreState V).Indexed :=
  ⟨⟨fun _ _ => ⟨nofun, nofun⟩, fun _ => List.nodup_nil⟩, nofun⟩

def Creates (s s' : StoreState V) : Prop :=
  ∃ userId newConnId, s.store.owner newConnId = none ∧ s'.store = (s.store.create userId newConnId s.now).2 ∧
    s'.issued = newConnId :: s.issued

/-- A step that takes out what it removes, and leaves the other owners and the users that have a list. -/
structure Drops (s s' : StoreState V) (op : StoreOp V) : Prop where
  index : s'.store.IndexOk
  issued : ∀ id ∈ s.issued, id ∈ s'.issued
  keys : ∀ u, u ∈ s'.store.userConnections.keys ↔ u ∈ s.store.userConnections.keys
  owner : ∀ id u, s'.store.owner id = some u ↔ s.store.owner id = some u ∧ ¬ s.Removes op id

theorem Drops.of_kept (hi : s.Indexed) (hu : s'.store.userConnections = s.store.userConnections)
    (ho : ∀ id, s'.store.owner id = s.store.owner id) (hissued : ∀ id ∈ s.issued, id ∈ s'.issued)
    (hr : ∀ id, ¬ s.Removes op id) : s.Drops s' op :=
  ⟨hi.index.congr hu ho, hissued, fun u => by rw [hu],
    fun id u => by rw [ho]; exact (and_iff_left (hr id)).symm⟩

theorem Drops.of_purged (hi : s.Indexed) (ids : List String) (hs : s'.store = ids.foldl ConnectionStore.purge s.store)
    (hissued : s'.issued = s.issued) (hr : ∀ id, s.Removes op id ↔ id ∈ ids) : s.Drops s' op := by
  refine ⟨by rw [hs]; exact hi.index.foldl_purge ids, fun id hid => hissued ▸ hid, fun u => ?_,
    fun id u => ?_⟩
  · rw [hs, ConnectionStore.keys_foldl_purge]
  · rw [hs, ConnectionStore.owner_foldl_purge, hr]
    split
    · next h => simp [h]
    · next h => simp [h]

theorem step_cases (hs : s.step op = some s') (hi : s.Indexed) :
    (s.Creates s' ∧ ∀ id, ¬ s.Removes op id) ∨ s.Drops s' op := by
  cases op with
  | resumeOrCreate connectionId userId requestedSeq newConnId =>
    simp only [step] at hs
    split at hs
    · cases hs
    next hnew =>
    cases hs
    rcases s.store.resumeOrCreate_cases connectionId userId requestedSeq newConnId s.now with
      ⟨connId, existing, rfl, hl, -, he⟩ | he
    · refine .inr (.of_kept hi (by rw [he]) (fun id => ?_) (fun id hid => List.mem_cons_of_mem _ hid) fun _ => id)
      rw [he]
      exact ConnectionStore.owner_insert hl rfl
    · refine .inl ⟨⟨userId, newConnId, ?_, by rw [he], rfl⟩, fun _ => id⟩
      cases ho : s.store.owner newConnId with
      | none => rfl
      | some u => exact absurd (hi.issued _ _ ho) hnew
  | queueMessage connectionId event =>
    cases hs
    exact .inr (.of_kept hi ConnectionStore.userConnections_queueMessage (fun id => ConnectionStore.owner_queueMessage)
      (fun _ => id) fun _ => id)
  | disconnectConnection connectionId =>
    cases hs
    exact .inr (.of_kept hi rfl (fun id => ConnectionStore.owner_disconnectConnection) (fun _ => id) fun _ => id)
  | removeConnection connectionId =>
    cases hs
    exact .inr (.of_purged hi [connectionId] rfl rfl fun id => List.mem_singleton.symm)
  | cleanupExpired =>
    cases hs
    exact .inr (.of_purged hi (s.store.expiredIds s.now) rfl rfl fun id => Iff.rfl)
  | wait d =>
    cases hs
    exact .inr (.of_kept hi rfl (fun id => rfl) (fun _ => id) fun _ => id)

theorem Indexed.step (hi : s.Indexed) (hs : s.step op = some s') : s'.Indexed := by
  rcases step_cases hs hi with ⟨⟨userId, newConnId, hnew, hstore, hissued⟩, -⟩ | hd
  · refine ⟨by rw [hstore]; exact hi.index.create hnew, fun id u ho => ?_⟩
    rw [hstore, ConnectionStore.owner_create] at ho
    rw [hissued]
    split at ho
    · next hid => exact hid ▸ List.mem_cons_self
    · exact List.mem_cons_of_mem _ (hi.issued id u ho)
  · exact ⟨hd.index, fun id u ho => hd.issued id (hi.issued id u ((hd.owner id u).1 ho).1)⟩

theorem uniqueUsersOk_step_iff (hi : s.Indexed) (hu : s.UniqueUsersOk) (hs : s.step op = some s') :
    s'.UniqueUsersOk ↔ s.KeepsOwners op := by
  have hkeys := hi.index.uniqueUsers_iff.1 hu
  have hkeys_iff := (hi.step hs).index.uniqueUsers_iff
  rw [UniqueUsersOk, hkeys_iff]
  rcases step_cases hs hi with ⟨⟨userId, newConnId, hnew, hstore, -⟩, hr⟩ | hd
  · refine iff_of_true (fun u hmem => ?_) fun id u ho => ⟨id, ho, hr id⟩
    rw [hstore] at hmem ⊢
    rcases Assoc.mem_keys_insert.1 hmem with rfl | hmem
    · exact ⟨newConnId, by rw [ConnectionStore.owner_create, if_pos rfl]⟩
    · obtain ⟨id, hid⟩ := hkeys u hmem
      refine ⟨id, ?_⟩
      rw [ConnectionStore.owner_create, if_neg (fun he => by rw [he, hnew] at hid; cases hid), hid]
  · constructor
    · intro hall id u ho
      have hmem := ConnectionStore.mem_keys_of_mem ((hi.index.mem_iff u id).2 ho)
      obtain ⟨id', ho'⟩ := hall u ((hd.keys u).2 hmem)
      exact ⟨id', (hd.owner id' u).1 ho'⟩
    · intro hP u hmem
      obtain ⟨id, ho⟩ := hkeys u ((hd.keys u).1 hmem)
      obtain ⟨id', ho', hr⟩ := hP id u ho
      exact ⟨id', (hd.owner id' u).2 ⟨ho', hr⟩⟩

/-- In every run the index is the inverse of the owners. The count of the users is right in all states of the
run if and only if no step takes the last connection of a user. -/
theorem uniqueUsers_iff_keepsOwners (ops : List (StoreOp V)) :
    Run.AllStates step (fun s => s.store.IndexOk) init ops ∧
      ∀ t, Run.exec step init ops = some t →
        (Run.AllStates step UniqueUsersOk (init : StoreState V) ops ↔ Run.AllSteps step KeepsOwners init ops) := by
  have hstep : ∀ (s : StoreState V) op s', s.Indexed → s.step op = some s' → s'.Indexed :=
    fun _ _ _ hi hs => hi.step hs
  constructor
  · exact (Run.invariant hstep indexed_init).mono fun s hi => hi.index
  · intro t ht
    exact Run.allStates_iff_allSteps hstep (fun s op s' hi hu hs => uniqueUsersOk_step_iff hi hu hs) indexed_init rfl ht

/-- A cleanup pass takes the only connection of the only user, and the store still counts one user. -/
theorem cleanup_keeps_list :
    ∃ s : StoreState Unit, Run.exec step init
        [.resumeOrCreate none 1 none "a", .disconnectConnection "a", .wait 300001, .cleanupExpired] = some s ∧
      s.store.owners = [] ∧ s.store.stats = ⟨0, 0, 0, 1⟩ :=
  ⟨_, rfl, rfl, rfl⟩

end StoreState

end Rustchat
