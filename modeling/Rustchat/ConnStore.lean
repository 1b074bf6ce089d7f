import Rustchat.Lib.Assoc
import Rustchat.Lib.Run
import Rustchat.Lib.Window
import Rustchat.MmId

/-!
# The connection store (`realtime/connection_store.rs`)

`ConnectionState` is what the server keeps of one resumable websocket stream: the next sequence
number, the ring buffer of recent messages, the time of the last activity and whether a websocket is
attached. `ConnectionStore` indexes the states by connection id and the ids by user. Sequence
numbers start at `1` and are drawn once per message; an `i64` counter does not reach its bound in
any run of the server, so they are plain integers. `StoreOp` are the operations of the store as one
step relation; `issued` collects the connection ids drawn so far, and a fresh version 4 uuid is not
among them.
-/

namespace Rustchat

/-- Milliseconds. -/
abbrev Instant := Nat

-- `CONNECTION_TTL`, 5 minutes
def connectionTtl : Nat := 300000

-- `MESSAGE_BUFFER_SIZE`
def messageBufferSize : Nat := 128

structure SequencedMessage (V : Type*) where
  seq : Int
  message : V
  timestamp : Instant
deriving DecidableEq

structure ConnectionState (V : Type*) where
  connectionId : String
  userId : Uuid
  -- the next message will use this value
  sequence : Int
  messageBuffer : List (SequencedMessage V)
  lastActivity : Instant
  -- whether a websocket is attached
  isActive : Bool
deriving DecidableEq

variable {V : Type*}

namespace ConnectionState

def new (connectionId : String) (userId : Uuid) (initialSeq : Int) (now : Instant) :
    ConnectionState V :=
  ⟨connectionId, userId, initialSeq, [], now, true⟩

def nextSequence (c : ConnectionState V) : Int × ConnectionState V :=
  (c.sequence, { c with sequence := c.sequence + 1 })

def currentSequence (c : ConnectionState V) : Int := c.sequence

def bufferMessage (c : ConnectionState V) (seq : Int) (message : V) (now : Instant) :
    ConnectionState V :=
  { c with
    messageBuffer := Window.push messageBufferSize c.messageBuffer ⟨seq, message, now⟩
    lastActivity := now }

def getMissedMessages (c : ConnectionState V) (sinceSeq : Int) : List (SequencedMessage V) :=
  c.messageBuffer.filter fun msg => decide (sinceSeq < msg.seq)

def markInactive (c : ConnectionState V) (now : Instant) : ConnectionState V :=
  { c with isActive := false, lastActivity := now }

def markActive (c : ConnectionState V) (now : Instant) : ConnectionState V :=
  { c with isActive := true, lastActivity := now }

def touch (c : ConnectionState V) (now : Instant) : ConnectionState V :=
  { c with lastActivity := now }

def isExpired (c : ConnectionState V) (now : Instant) : Bool :=
  if c.isActive then false else decide (connectionTtl < now - c.lastActivity)

theorem not_isExpired_of_isActive {c : ConnectionState V} (h : c.isActive = true) (now : Instant) :
    c.isExpired now = false := by
  simp [isExpired, h]

end ConnectionState

structure ConnectionStore (V : Type*) where
  connections : Assoc String (ConnectionState V)
  userConnections : Assoc Uuid (List String)

namespace ConnectionStore

def empty : ConnectionStore V := ⟨∅, ∅⟩

/-- The tail of `resume_or_create`: insert a fresh state under a fresh id. -/
def create (store : ConnectionStore V) (userId : Uuid) (newConnId : String) (now : Instant) :
    (ConnectionState V × Bool × List (SequencedMessage V)) × ConnectionStore V :=
  let state := ConnectionState.new newConnId userId 1 now
  ((state, false, []),
    { connections := store.connections.insert newConnId state
      userConnections := store.userConnections.insert userId
        ((store.userConnections.lookup userId).getD [] ++ [newConnId]) })

/-- Resume the stream `connectionId` if it is stored and belongs to the user, else create one under
the fresh id `newConnId`. Returns the state, whether it was resumed and the messages to replay. -/
def resumeOrCreate (store : ConnectionStore V) (connectionId : Option String) (userId : Uuid)
    (requestedSeq : Option Int) (newConnId : String) (now : Instant) :
    (ConnectionState V × Bool × List (SequencedMessage V)) × ConnectionStore V :=
  match connectionId with
  | some connId =>
    match store.connections.lookup connId with
    | some existing =>
      if existing.userId = userId then
        let active := existing.markActive now
        ((active, true, active.getMissedMessages (requestedSeq.getD (-1))),
          { store with connections := store.connections.insert connId active })
      else store.create userId newConnId now
    | none => store.create userId newConnId now
  | none => store.create userId newConnId now

def getConnection (store : ConnectionStore V) (connectionId : String) : Option (ConnectionState V) :=
  store.connections.lookup connectionId

def disconnectConnection (store : ConnectionStore V) (connectionId : String) (now : Instant) :
    ConnectionStore V :=
  { store with connections := Assoc.modify connectionId (·.markInactive now) store.connections }

def queueMessage (store : ConnectionStore V) (connectionId : String) (event : V) (now : Instant) :
    Option Int × ConnectionStore V :=
  match store.connections.lookup connectionId with
  | some state =>
    let (seq, state) := state.nextSequence
    (some seq,
      { store with connections := store.connections.insert connectionId (state.bufferMessage seq event now) })
  | none => (none, store)

/-- Drop the state of `connectionId` and its entry in the user index. -/
def purge (store : ConnectionStore V) (connectionId : String) : ConnectionStore V :=
  match store.connections.lookup connectionId with
  | some state =>
    { connections := store.connections.erase connectionId
      userConnections :=
        Assoc.modify state.userId (·.filter fun id => id ≠ connectionId) store.userConnections }
  | none => store

-- the removed state is also marked inactive, which nothing reads any more
def removeConnection (store : ConnectionStore V) (connectionId : String) : ConnectionStore V :=
  store.purge connectionId

-- the scan of `cleanup_expired`, which then removes what it found one by one
def expiredIds (store : ConnectionStore V) (now : Instant) : List String :=
  (store.connections.entries.filter fun e => e.2.isExpired now).map Sigma.fst

def cleanupExpired (store : ConnectionStore V) (now : Instant) : ConnectionStore V :=
  (store.expiredIds now).foldl purge store

variable {store : ConnectionStore V} {connectionId : Option String} {connId id : String}
  {userId : Uuid} {requestedSeq : Option Int} {newConnId : String} {now : Instant} {event : V}

/-- What `resume_or_create` can do: resume a stored stream of this user, or create a fresh one. -/
theorem resumeOrCreate_cases (store : ConnectionStore V) (connectionId : Option String) (userId : Uuid)
    (requestedSeq : Option Int) (newConnId : String) (now : Instant) :
    (∃ connId existing, connectionId = some connId ∧ store.connections.lookup connId = some existing ∧
      existing.userId = userId ∧
      store.resumeOrCreate connectionId userId requestedSeq newConnId now =
        ((existing.markActive now, true,
            (existing.markActive now).getMissedMessages (requestedSeq.getD (-1))),
          { store with connections := store.connections.insert connId (existing.markActive now) })) ∨
    store.resumeOrCreate connectionId userId requestedSeq newConnId now =
      store.create userId newConnId now := by
  unfold resumeOrCreate
  cases connectionId with
  | none => exact .inr rfl
  | some connId =>
    cases h : store.connections.lookup connId with
    | none => right; simp only [h]
    | some existing =>
      by_cases hu : existing.userId = userId
      · refine .inl ⟨connId, existing, rfl, h, hu, ?_⟩
        simp only [h, hu, ↓reduceIte]
      · right; simp only [h, hu, ↓reduceIte]

theorem resumeOrCreate_of_owner {existing : ConnectionState V}
    (h : store.connections.lookup connId = some existing) (hu : existing.userId = userId) :
    store.resumeOrCreate (some connId) userId requestedSeq newConnId now =
      ((existing.markActive now, true,
          (existing.markActive now).getMissedMessages (requestedSeq.getD (-1))),
        { store with connections := store.connections.insert connId (existing.markActive now) }) := by
  simp only [resumeOrCreate, h, hu, ↓reduceIte]

theorem resumeOrCreate_of_none (h : store.connections.lookup connId = none) :
    store.resumeOrCreate (some connId) userId requestedSeq newConnId now =
      store.create userId newConnId now := by
  simp only [resumeOrCreate, h]

theorem lookup_create :
    (store.create userId newConnId now).2.connections.lookup id =
      if id = newConnId then some (.new newConnId userId 1 now) else store.connections.lookup id :=
  Assoc.lookup_insert_eq

theorem lookup_disconnectConnection :
    (store.disconnectConnection connId now).connections.lookup id =
      if id = connId then (store.connections.lookup connId).map (·.markInactive now)
      else store.connections.lookup id :=
  Assoc.lookup_modify _

theorem queueMessage_of_lookup {c : ConnectionState V} (h : store.connections.lookup connId = some c) :
    store.queueMessage connId event now = (some c.sequence,
      { store with connections :=
          store.connections.insert connId ((c.nextSequence.2).bufferMessage c.sequence event now) }) := by
  simp only [queueMessage, h]; rfl

theorem queueMessage_of_none (h : store.connections.lookup connId = none) :
    store.queueMessage connId event now = (none, store) := by
  simp only [queueMessage, h]

theorem lookup_queueMessage :
    (store.queueMessage connId event now).2.connections.lookup id =
      if id = connId then (store.connections.lookup connId).map fun c =>
        (c.nextSequence.2).bufferMessage c.sequence event now
      else store.connections.lookup id := by
  cases h : store.connections.lookup connId with
  | none =>
    rw [queueMessage_of_none h]
    split
    · subst id; exact h
    · rfl
  | some c =>
    rw [queueMessage_of_lookup h]
    exact Assoc.lookup_insert_eq

theorem lookup_purge :
    (store.purge connId).connections.lookup id =
      if id = connId then none else store.connections.lookup id := by
  cases h : store.connections.lookup connId with
  | none =>
    simp only [purge, h]
    split
    · subst id; exact h
    · rfl
  | some c =>
    simp only [purge, h]
    exact Assoc.lookup_erase_eq

theorem lookup_foldl_purge (ids : List String) :
    (ids.foldl purge store).connections.lookup id =
      if id ∈ ids then none else store.connections.lookup id := by
  induction ids generalizing store with
  | nil => rfl
  | cons connId ids ih =>
    rw [List.foldl_cons, ih, lookup_purge]
    by_cases h1 : id ∈ ids <;> by_cases h2 : id = connId <;> simp [h1, h2]

end ConnectionStore

/-! ### Runs of the store -/

structure StoreState (V : Type*) where
  store : ConnectionStore V
  -- the connection ids drawn so far
  issued : List String
  now : Instant

inductive StoreOp (V : Type*) where
  | resumeOrCreate (connectionId : Option String) (userId : Uuid) (requestedSeq : Option Int)
      (newConnId : String)
  | queueMessage (connectionId : String) (event : V)
  | disconnectConnection (connectionId : String)
  | removeConnection (connectionId : String)
  | cleanupExpired
  | wait (d : Nat)

namespace StoreState

def init : StoreState V := ⟨.empty, [], 0⟩

/-- One operation of the store. A fresh version 4 uuid was not drawn before. -/
def step (s : StoreState V) : StoreOp V → Option (StoreState V)
  | .resumeOrCreate connectionId userId requestedSeq newConnId =>
    if newConnId ∈ s.issued then none
    else some { s with
      store := (s.store.resumeOrCreate connectionId userId requestedSeq newConnId s.now).2
      issued := newConnId :: s.issued }
  | .queueMessage connectionId event =>
    some { s with store := (s.store.queueMessage connectionId event s.now).2 }
  | .disconnectConnection connectionId =>
    some { s with store := s.store.disconnectConnection connectionId s.now }
  | .removeConnection connectionId => some { s with store := s.store.removeConnection connectionId }
  | .cleanupExpired => some { s with store := s.store.cleanupExpired s.now }
  | .wait d => some { s with now := s.now + d }

variable {s s' : StoreState V} {op : StoreOp V} {id : String} {c c' : ConnectionState V}

theorem issued_of_step (h : s.step op = some s') (hid : id ∈ s.issued) : id ∈ s'.issued := by
  cases op with
  | resumeOrCreate connectionId userId requestedSeq newConnId =>
    simp only [step] at h
    split at h
    · cases h
    · cases h; exact List.mem_cons_of_mem _ hid
  | _ => simp only [step, Option.some.injEq] at h; subst h; exact hid

/-- An issued stream is stored after a step only if it was stored before, and the step either queued
one message on it or left its owner, counter and buffer alone. -/
theorem lookup_of_step (h : s.step op = some s') (hid : id ∈ s.issued)
    (hc : s'.store.connections.lookup id = some c') :
    ∃ c, s.store.connections.lookup id = some c ∧
      ((∃ event, op = .queueMessage id event ∧
          c' = (c.nextSequence.2).bufferMessage c.sequence event s.now) ∨
        ((∀ event, op ≠ .queueMessage id event) ∧ c'.userId = c.userId ∧ c'.sequence = c.sequence ∧
          c'.messageBuffer = c.messageBuffer)) := by
  cases op with
  | resumeOrCreate connectionId userId requestedSeq newConnId =>
    simp only [step] at h
    split at h
    · cases h
    rename_i hnew
    cases h
    have hne : id ≠ newConnId := fun he => hnew (he ▸ hid)
    rcases s.store.resumeOrCreate_cases connectionId userId requestedSeq newConnId s.now with
      ⟨connId, existing, rfl, hl, -, he⟩ | he
    · simp only [he, Assoc.lookup_insert_eq] at hc
      split at hc
      · subst id; cases hc
        exact ⟨existing, hl, .inr ⟨fun _ => nofun, rfl, rfl, rfl⟩⟩
      · exact ⟨c', hc, .inr ⟨fun _ => nofun, rfl, rfl, rfl⟩⟩
    · simp only [he, ConnectionStore.lookup_create, hne, ↓reduceIte] at hc
      exact ⟨c', hc, .inr ⟨fun _ => nofun, rfl, rfl, rfl⟩⟩
  | queueMessage connectionId event =>
    simp only [step, Option.some.injEq] at h
    subst h
    rw [ConnectionStore.lookup_queueMessage] at hc
    split at hc
    · subst id
      obtain ⟨c, hl, rfl⟩ := Option.map_eq_some_iff.1 hc
      exact ⟨c, hl, .inl ⟨event, rfl, rfl⟩⟩
    · rename_i hne
      exact ⟨c', hc, .inr ⟨fun e he => hne (by cases he; rfl), rfl, rfl, rfl⟩⟩
  | disconnectConnection connectionId =>
    simp only [step, Option.some.injEq] at h
    subst h
    rw [ConnectionStore.lookup_disconnectConnection] at hc
    split at hc
    · subst id
      obtain ⟨c, hl, rfl⟩ := Option.map_eq_some_iff.1 hc
      exact ⟨c, hl, .inr ⟨fun _ => nofun, rfl, rfl, rfl⟩⟩
    · exact ⟨c', hc, .inr ⟨fun _ => nofun, rfl, rfl, rfl⟩⟩
  | removeConnection connectionId =>
    simp only [step, Option.some.injEq] at h
    subst h
    simp only [ConnectionStore.removeConnection, ConnectionStore.lookup_purge] at hc
    split at hc
    · cases hc
    · exact ⟨c', hc, .inr ⟨fun _ => nofun, rfl, rfl, rfl⟩⟩
  | cleanupExpired =>
    simp only [step, Option.some.injEq] at h
    subst h
    simp only [ConnectionStore.cleanupExpired, ConnectionStore.lookup_foldl_purge] at hc
    split at hc
    · cases hc
    · exact ⟨c', hc, .inr ⟨fun _ => nofun, rfl, rfl, rfl⟩⟩
  | wait d =>
    simp only [step, Option.some.injEq] at h
    subst h
    exact ⟨c', hc, .inr ⟨fun _ => nofun, rfl, rfl, rfl⟩⟩

end StoreState

end Rustchat
