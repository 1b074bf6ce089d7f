import Rustchat.ConnStore

/-!
# Sockets attached to a resumable stream (`realtime/websocket_actor.rs`, `api/v4/websocket.rs`)

A socket attaches to a stream in `WebSocketActor::new` and is driven by two tasks: the actor task, which
marks the stream inactive when it ends, and `run_connection`, which does so again in its cleanup (but
not on its early returns). The stream knows one flag, so the teardown of one socket also detaches any
other socket of the stream. `Attach.live_iff` is the discipline under which this never hits a live
socket: a stream is only resumed when no earlier socket of it still has a teardown call to make and no
cleanup pass has already found it expired. Every resumption outside of it can be continued into a state
where a live socket sits on a stream that is inactive or purged.
-/

namespace Rustchat

/-- The progress of one of the two tasks of a socket: in its main loop, past the loop with the
`disconnect_connection` still to come, or finished. -/
inductive TaskPhase where
  | running
  | leaving
  | done
deriving DecidableEq

structure Socket where
  connectionId : String
  actor : TaskPhase
  loop : TaskPhase
deriving DecidableEq

/-- Both tasks of the socket are in their main loop. -/
def Socket.Live (k : Socket) : Prop := k.actor = .running ∧ k.loop = .running

/-- Neither task has a teardown call left. -/
def Socket.Finished (k : Socket) : Prop := k.actor = .done ∧ k.loop = .done

instance (k : Socket) : Decidable k.Live := inferInstanceAs (Decidable (_ ∧ _))
instance (k : Socket) : Decidable k.Finished := inferInstanceAs (Decidable (_ ∧ _))

/-- The check of the calls cleanup, three seconds after a teardown. -/
def ConnectionStore.stillInactive {V : Type*} (store : ConnectionStore V) (connectionId : String) : Bool :=
  ((store.getConnection connectionId).map fun conn => !conn.isActive).getD true

structure AttachState (V : Type*) where
  store : ConnectionStore V
  -- the connection ids drawn so far
  issued : List String
  now : Instant
  sockets : Assoc Nat Socket
  -- what the cleanup pass found expired and has not removed yet
  expired : List String

inductive AttachOp (V : Type*) where
  | attach (socket : Nat) (connectionId : Option String) (userId : Uuid) (sequenceNumber : Option Int)
      (newConnId : String)
  | actorExit (socket : Nat)
  | actorDisconnect (socket : Nat)
  | loopExit (socket : Nat)
  | loopDisconnect (socket : Nat)
  -- `run_connection` returns early
  | loopReturn (socket : Nat)
  | touch (socket : Nat)
  | queueMessage (connectionId : String) (event : V)
  -- `cleanup_expired` visits an entry, or removes the next expired one
  | collect (connectionId : String)
  | purge
  | wait (d : Nat)

namespace AttachState

variable {V : Type*}

def init : AttachState V := ⟨.empty, [], 0, ∅, []⟩

def update (s : AttachState V) (socket : Nat) (f : Socket → Option Socket) : Option (AttachState V) :=
  match s.sockets.lookup socket with
  | some k => (f k).map fun k => { s with sockets := s.sockets.insert socket k }
  | none => none

def step (s : AttachState V) : AttachOp V → Option (AttachState V)
  | .attach socket connectionId userId sequenceNumber newConnId =>
    if newConnId ∈ s.issued ∨ (s.sockets.lookup socket).isSome then none
    else
      let answer := s.store.resumeOrCreate connectionId userId sequenceNumber newConnId s.now
      some { s with
        store := answer.2
        issued := newConnId :: s.issued
        sockets := s.sockets.insert socket ⟨answer.1.1.connectionId, .running, .running⟩ }
  | .actorExit socket =>
    s.update socket fun k => if k.actor = .running then some { k with actor := .leaving } else none
  | .actorDisconnect socket =>
    match s.sockets.lookup socket with
    | some k =>
      if k.actor = .leaving then
        some { s with
          store := s.store.disconnectConnection k.connectionId s.now
          sockets := s.sockets.insert socket { k with actor := .done } }
      else none
    | none => none
  | .loopExit socket =>
    s.update socket fun k => if k.loop = .running then some { k with loop := .leaving } else none
  | .loopDisconnect socket =>
    match s.sockets.lookup socket with
    | some k =>
      if k.loop = .leaving then
        some { s with
          store := s.store.disconnectConnection k.connectionId s.now
          sockets := s.sockets.insert socket { k with loop := .done } }
      else none
    | none => none
  | .loopReturn socket =>
    s.update socket fun k => if k.loop = .running then some { k with loop := .done } else none
  | .touch socket =>
    match s.sockets.lookup socket with
    | some k =>
      if k.actor = .running then
        some { s with store := { s.store with
          connections := Assoc.modify k.connectionId (·.touch s.now) s.store.connections } }
      else none
    | none => none
  | .queueMessage connectionId event =>
    some { s with store := (s.store.queueMessage connectionId event s.now).2 }
  | .collect connectionId =>
    match s.store.connections.lookup connectionId with
    | some c => if c.isExpired s.now then some { s with expired := s.expired ++ [connectionId] } else none
    | none => none
  | .purge =>
    match s.expired with
    | connectionId :: rest => some { s with store := s.store.purge connectionId, expired := rest }
    | [] => none
  | .wait d => some { s with now := s.now + d }

/-- A live socket sits on a stream that is stored and active: the cleanup does not take it for expired
and the calls cleanup does not take it for closed. -/
def LiveSocketsActive (s : AttachState V) : Prop :=
  ∀ socket k, s.sockets.lookup socket = some k → k.Live →
    ∃ c, s.store.getConnection k.connectionId = some c ∧ c.isActive = true ∧ c.isExpired s.now = false ∧
      s.store.stillInactive k.connectionId = false

/-- A resumption happens after the teardown of every earlier socket of the stream, and not between a
cleanup pass finding the stream expired and removing it. -/
def ResumesAfterTeardown (s : AttachState V) : AttachOp V → Prop
  | .attach _ (some connectionId) userId _ _ =>
    (∃ existing, s.store.connections.lookup connectionId = some existing ∧ existing.userId = userId) →
      (∀ socket k, s.sockets.lookup socket = some k → k.connectionId = connectionId → k.Finished) ∧
        connectionId ∉ s.expired
  | _ => True

variable {s s' : AttachState V} {op : AttachOp V}

/-- A task of the socket `n` moves on, possibly marking the stream of the socket inactive. -/
structure Advances (s s' : AttachState V) (n : Nat) (k k' : Socket) : Prop where
  lookup : s.sockets.lookup n = some k
  sockets : s'.sockets = s.sockets.insert n k'
  connectionId : k'.connectionId = k.connectionId
  unfinished : ¬ k.Finished
  not_live : ¬ k'.Live
  store : s'.store = s.store ∨ (s'.store = s.store.disconnectConnection k.connectionId s.now ∧ ¬ k.Live)
  issued : s'.issued = s.issued
  expired : s'.expired = s.expired

/-- Ids and activity of the streams, the sockets and the cleanup list stay as they are. -/
structure Quiet (s s' : AttachState V) : Prop where
  sockets : s'.sockets = s.sockets
  store : ∀ id, (s'.store.connections.lookup id).map (fun c => (c.connectionId, c.isActive)) =
    (s.store.connections.lookup id).map fun c => (c.connectionId, c.isActive)
  issued : s'.issued = s.issued
  expired : s'.expired = s.expired

theorem advances_of_update {n : Nat} {f : Socket → Option Socket}
    (hf : ∀ k k', f k = some k' → k'.connectionId = k.connectionId ∧ ¬ k.Finished ∧ ¬ k'.Live)
    (h : s.update n f = some s') : ∃ k k', s.Advances s' n k k' := by
  unfold update at h
  split at h
  · next k hk =>
    obtain ⟨k', hk', rfl⟩ := Option.map_eq_some_iff.1 h
    obtain ⟨h1, h2, h3⟩ := hf k k' hk'
    exact ⟨k, k', hk, rfl, h1, h2, h3, .inl rfl, rfl, rfl⟩
  · cases h

theorem step_cases (h : s.step op = some s') :
    (∃ n connectionId userId sequenceNumber newConnId, newConnId ∉ s.issued ∧ s.sockets.lookup n = none ∧
      op = .attach n connectionId userId sequenceNumber newConnId ∧
      s'.sockets = s.sockets.insert n
        ⟨(s.store.resumeOrCreate connectionId userId sequenceNumber newConnId s.now).1.1.connectionId,
          .running, .running⟩ ∧
      s'.store = (s.store.resumeOrCreate connectionId userId sequenceNumber newConnId s.now).2 ∧
      s'.issued = newConnId :: s.issued ∧ s'.expired = s.expired) ∨
    (∃ n k k', s.Advances s' n k k') ∨ s.Quiet s' ∨
    (∃ id c, s.store.connections.lookup id = some c ∧ c.isActive = false ∧
      s' = { s with expired := s.expired ++ [id] }) ∨
    (∃ id rest, s.expired = id :: rest ∧ s' = { s with store := s.store.purge id, expired := rest }) := by
  cases op with
  | attach n connectionId userId sequenceNumber newConnId =>
    simp only [step] at h
    split at h
    · cases h
    · next hnew =>
      rw [not_or] at hnew
      simp only [Option.some.injEq] at h
      subst h
      refine .inl ⟨n, connectionId, userId, sequenceNumber, newConnId, hnew.1, ?_, rfl, rfl, rfl, rfl, rfl⟩
      simpa using hnew.2
  | actorExit n =>
    refine .inr (.inl ⟨n, advances_of_update (fun k k' hk => ?_) h⟩)
    split at hk
    · next ha => cases hk; exact ⟨rfl, fun hf => by simp [hf.1] at ha, fun hl => by cases hl.1⟩
    · cases hk
  | actorDisconnect n =>
    simp only [step] at h
    split at h
    · next k hk =>
      split at h
      · next ha =>
        simp only [Option.some.injEq] at h
        subst h
        have hl : ¬ k.Live := fun hl => by simp [hl.1] at ha
        exact .inr (.inl ⟨n, k, _, hk, rfl, rfl, fun hf => by simp [hf.1] at ha, fun hl => by (cases hl.1),
          .inr ⟨rfl, hl⟩, rfl, rfl⟩)
      · cases h
    · cases h
  | loopExit n =>
    refine .inr (.inl ⟨n, advances_of_update (fun k k' hk => ?_) h⟩)
    split at hk
    · next ha => cases hk; exact ⟨rfl, fun hf => by simp [hf.2] at ha, fun hl => by cases hl.2⟩
    · cases hk
  | loopDisconnect n =>
    simp only [step] at h
    split at h
    · next k hk =>
      split at h
      · next ha =>
        simp only [Option.some.injEq] at h
        subst h
        have hl : ¬ k.Live := fun hl => by simp [hl.2] at ha
        exact .inr (.inl ⟨n, k, _, hk, rfl, rfl, fun hf => by simp [hf.2] at ha, fun hl => by (cases hl.2),
          .inr ⟨rfl, hl⟩, rfl, rfl⟩)
      · cases h
    · cases h
  | loopReturn n =>
    refine .inr (.inl ⟨n, advances_of_update (fun k k' hk => ?_) h⟩)
    split at hk
    · next ha => cases hk; exact ⟨rfl, fun hf => by simp [hf.2] at ha, fun hl => by cases hl.2⟩
    · cases hk
  | touch n =>
    simp only [step] at h
    split at h
    · next k hk =>
      split at h
      · simp only [Option.some.injEq] at h
        subst h
        refine .inr (.inr (.inl ⟨rfl, fun id => ?_, rfl, rfl⟩))
        rw [Assoc.lookup_modify]
        split
        · subst id; rw [Option.map_map]; rfl
        · rfl
      · cases h
    · cases h
  | queueMessage connectionId event =>
    simp only [step, Option.some.injEq] at h
    subst h
    refine .inr (.inr (.inl ⟨rfl, fun id => ?_, rfl, rfl⟩))
    rw [ConnectionStore.lookup_queueMessage]
    split
    · subst id; rw [Option.map_map]; rfl
    · rfl
  | collect connectionId =>
    simp only [step] at h
    split at h
    · next c hc =>
      split at h
      · next he =>
        simp only [Option.some.injEq] at h
        subst h
        refine .inr (.inr (.inr (.inl ⟨connectionId, c, hc, ?_, rfl⟩)))
        cases ha : c.isActive with
        | false => rfl
        | true => rw [ConnectionState.not_isExpired_of_isActive ha] at he; cases he
      · cases h
    · cases h
  | purge =>
    simp only [step] at h
    split at h
    · next id rest hx =>
      simp only [Option.some.injEq] at h
      exact .inr (.inr (.inr (.inr ⟨id, rest, hx, h.symm⟩)))
    · cases h
  | wait d =>
    simp only [step, Option.some.injEq] at h
    subst h
    exact .inr (.inr (.inl ⟨rfl, fun _ => rfl, rfl, rfl⟩))

/-- Streams, sockets and the cleanup list know drawn ids only, and a stream its own id. -/
structure Ok (s : AttachState V) : Prop where
  streams : ∀ id c, s.store.connections.lookup id = some c → c.connectionId = id ∧ id ∈ s.issued
  sockets : ∀ n k, s.sockets.lookup n = some k → k.connectionId ∈ s.issued
  expired : ∀ id ∈ s.expired, id ∈ s.issued

theorem Ok.init : (init : AttachState V).Ok :=
  ⟨fun _ _ h => by (cases h), fun _ _ h => by (cases h), fun _ h => by cases h⟩

theorem attach_cases (h : s.Ok) (connectionId : Option String) (userId : Uuid) (sequenceNumber : Option Int)
    (newConnId : String) :
    let answer := s.store.resumeOrCreate connectionId userId sequenceNumber newConnId s.now
    ∃ id c, answer.1.1.connectionId = id ∧ c.connectionId = id ∧ c.isActive = true ∧
      (∀ j, answer.2.connections.lookup j = if j = id then some c else s.store.connections.lookup j) ∧
      ((connectionId = some id ∧ id ∈ s.issued ∧
          ∃ existing, s.store.connections.lookup id = some existing ∧ existing.userId = userId) ∨
        id = newConnId) := by
  intro answer
  rcases s.store.resumeOrCreate_cases connectionId userId sequenceNumber newConnId s.now with
    ⟨id, existing, rfl, hl, hu, he⟩ | he
  · obtain ⟨hid, hissued⟩ := h.streams id existing hl
    refine ⟨id, existing.markActive s.now, ?_, hid, rfl, fun j => ?_, .inl ⟨rfl, hissued, existing, hl, hu⟩⟩
    · show answer.1.1.connectionId = id
      simp only [answer, he]; exact hid
    · simp only [answer, he]; exact Assoc.lookup_insert_eq
  · refine ⟨newConnId, .new newConnId userId 1 s.now, ?_, rfl, rfl, fun j => ?_, .inr rfl⟩
    · show answer.1.1.connectionId = newConnId
      simp only [answer, he]; rfl
    · simp only [answer, he]; exact ConnectionStore.lookup_create

theorem Advances.lookup_store {n : Nat} {k k' : Socket} (h : s.Advances s' n k k') (id : String) :
    (s'.store.connections.lookup id).map ConnectionState.connectionId =
      (s.store.connections.lookup id).map ConnectionState.connectionId := by
  rcases h.store with he | ⟨he, -⟩
  · rw [he]
  · rw [he, ConnectionStore.lookup_disconnectConnection]
    split
    · subst id; rw [Option.map_map]; rfl
    · rfl

theorem Ok.of_lookup (h : s.Ok) (hi : s'.issued = s.issued) (hx : s'.expired ⊆ s.expired)
    (hs : ∀ id c, s'.store.connections.lookup id = some c → ∃ d, s.store.connections.lookup id = some d ∧
      c.connectionId = d.connectionId)
    (hk : ∀ n k, s'.sockets.lookup n = some k → k.connectionId ∈ s.issued) : s'.Ok := by
  refine ⟨fun id c hc => ?_, fun n k hn => ?_, fun id hid => ?_⟩
  · obtain ⟨d, hd, he⟩ := hs id c hc
    obtain ⟨h1, h2⟩ := h.streams id d hd
    exact ⟨he.trans h1, hi ▸ h2⟩
  · rw [hi]; exact hk n k hn
  · rw [hi]; exact h.expired id (hx hid)

theorem Ok.step (h : s.Ok) (hs : s.step op = some s') : s'.Ok := by
  rcases step_cases hs with
    ⟨n, connectionId, userId, sequenceNumber, newConnId, hnew, hn, -, hsock, hstore, hissued, hexp⟩ |
    ⟨n, k, k', ha⟩ | hq | ⟨id, c, hc, -, rfl⟩ | ⟨id, rest, hx, rfl⟩
  · obtain ⟨id, c, hid, hcid, -, hl, hcase⟩ := attach_cases h connectionId userId sequenceNumber newConnId
    have hin : id ∈ s'.issued := by
      rw [hissued]
      rcases hcase with ⟨-, hin, -⟩ | rfl
      · exact List.mem_cons_of_mem _ hin
      · exact List.mem_cons_self
    refine ⟨fun j d hd => ?_, fun m k hm => ?_, fun j hj => ?_⟩
    · rw [hstore, hl] at hd
      split at hd
      · subst j; cases hd; exact ⟨hcid, hin⟩
      · obtain ⟨h1, h2⟩ := h.streams j d hd
        exact ⟨h1, hissued ▸ List.mem_cons_of_mem _ h2⟩
    · rw [hsock] at hm
      rcases Assoc.lookup_insert_cases hm with ⟨-, rfl⟩ | ⟨-, hm⟩
      · rw [hid]; exact hin
      · rw [hissued]; exact List.mem_cons_of_mem _ (h.sockets m k hm)
    · rw [hexp] at hj
      rw [hissued]; exact List.mem_cons_of_mem _ (h.expired j hj)
  · refine h.of_lookup ha.issued (by rw [ha.expired]; exact fun _ h => h) (fun id c hc => ?_) fun m l hm => ?_
    · have hl := ha.lookup_store id
      rw [hc, Option.map_some, eq_comm, Option.map_eq_some_iff] at hl
      obtain ⟨d, hd, he⟩ := hl
      exact ⟨d, hd, he.symm⟩
    · rw [ha.sockets] at hm
      rcases Assoc.lookup_insert_cases hm with ⟨-, rfl⟩ | ⟨-, hm⟩
      · rw [ha.connectionId]; exact h.sockets n k ha.lookup
      · exact h.sockets m l hm
  · refine h.of_lookup hq.issued (by rw [hq.expired]; exact fun _ h => h) (fun id c hc => ?_) fun m l hm => ?_
    · have hl := hq.store id
      rw [hc, Option.map_some, eq_comm, Option.map_eq_some_iff] at hl
      obtain ⟨d, hd, he⟩ := hl
      exact ⟨d, hd, (Prod.mk.inj he).1.symm⟩
    · rw [hq.sockets] at hm; exact h.sockets m l hm
  · refine ⟨h.streams, h.sockets, fun j hj => ?_⟩
    rcases List.mem_append.1 hj with hj | hj
    · exact h.expired j hj
    · rw [List.mem_singleton.1 hj]; exact (h.streams id c hc).2
  · refine h.of_lookup rfl (fun j hj => by rw [hx]; exact List.mem_cons_of_mem _ hj) (fun j c hc => ?_)
      h.sockets
    simp only [ConnectionStore.lookup_purge] at hc
    split at hc
    · cases hc
    · exact ⟨c, hc, rfl⟩

/-! ### The discipline is enough -/

/-- A live socket has its stream for itself, up to sockets that are finished. -/
structure Separate (s : AttachState V) : Prop where
  active : ∀ n k, s.sockets.lookup n = some k → k.Live →
    ∃ c, s.store.connections.lookup k.connectionId = some c ∧ c.isActive = true
  alone : ∀ m n k l, s.sockets.lookup m = some k → s.sockets.lookup n = some l → m ≠ n →
    k.connectionId = l.connectionId → k.Finished ∨ l.Finished
  expired : ∀ n k, s.sockets.lookup n = some k → k.Live → k.connectionId ∉ s.expired

theorem Separate.init : (init : AttachState V).Separate :=
  ⟨fun _ _ h => by (cases h), fun _ _ _ _ h => by (cases h), fun _ _ h => by cases h⟩

theorem not_finished_of_live {k : Socket} (h : k.Live) : ¬ k.Finished := by
  intro hf
  cases h.1.symm.trans hf.1

theorem Separate.liveSocketsActive (h : s.Separate) : s.LiveSocketsActive := by
  intro n k hn hk
  obtain ⟨c, hc, ha⟩ := h.active n k hn hk
  refine ⟨c, hc, ha, ConnectionState.not_isExpired_of_isActive ha s.now, ?_⟩
  rw [ConnectionStore.stillInactive, ConnectionStore.getConnection, hc]
  simp [ha]

theorem Separate.congr (h : s.Separate) (hk : s'.sockets = s.sockets)
    (hs : ∀ n k, s.sockets.lookup n = some k → k.Live →
      (s'.store.connections.lookup k.connectionId).map ConnectionState.isActive =
        (s.store.connections.lookup k.connectionId).map ConnectionState.isActive)
    (hx : ∀ n k, s.sockets.lookup n = some k → k.Live → k.connectionId ∉ s'.expired) : s'.Separate := by
  refine ⟨fun n k hn hl => ?_, fun m n k l hm hn => ?_, fun n k hn hl => ?_⟩
  · rw [hk] at hn
    obtain ⟨c, hc, ha⟩ := h.active n k hn hl
    have hm := hs n k hn hl
    rw [hc, Option.map_some, ha, Option.map_eq_some_iff] at hm
    exact hm
  · rw [hk] at hm hn
    exact h.alone m n k l hm hn
  · rw [hk] at hn
    exact hx n k hn hl

theorem Separate.advance (h : s.Separate) {n : Nat} {k k' : Socket} (ha : s.Advances s' n k k') :
    s'.Separate := by
  -- a live socket is another one, so its stream is another one too
  have hother : ∀ m l, s'.sockets.lookup m = some l → l.Live →
      m ≠ n ∧ s.sockets.lookup m = some l ∧ l.connectionId ≠ k.connectionId := by
    intro m l hm hl
    rw [ha.sockets] at hm
    rcases Assoc.lookup_insert_cases hm with ⟨-, rfl⟩ | ⟨hne, hm⟩
    · exact absurd hl ha.not_live
    · refine ⟨hne, hm, fun he => ?_⟩
      rcases h.alone m n l k hm ha.lookup hne he with hf | hf
      · exact not_finished_of_live hl hf
      · exact ha.unfinished hf
  refine ⟨fun m l hm hl => ?_, fun m₁ m₂ l₁ l₂ h₁ h₂ hne he => ?_, fun m l hm hl => ?_⟩
  · obtain ⟨hne, hm, hid⟩ := hother m l hm hl
    obtain ⟨c, hc, hact⟩ := h.active m l hm hl
    refine ⟨c, ?_, hact⟩
    rcases ha.store with hst | ⟨hst, -⟩
    · rw [hst]; exact hc
    · rw [hst, ConnectionStore.lookup_disconnectConnection, if_neg hid]; exact hc
  · rw [ha.sockets] at h₁ h₂
    rcases Assoc.lookup_insert_cases h₁ with ⟨e₁, rfl⟩ | ⟨-, h₁⟩ <;>
      rcases Assoc.lookup_insert_cases h₂ with ⟨e₂, rfl⟩ | ⟨-, h₂⟩
    · exact absurd (e₁.trans e₂.symm) hne
    · rw [ha.connectionId] at he
      have := h.alone n m₂ k l₂ ha.lookup h₂ (e₁ ▸ hne) he
      exact .inr (this.resolve_left ha.unfinished)
    · rw [ha.connectionId] at he
      have := h.alone m₁ n l₁ k h₁ ha.lookup (e₂ ▸ hne) he
      exact .inl (this.resolve_right ha.unfinished)
    · exact h.alone m₁ m₂ l₁ l₂ h₁ h₂ hne he
  · obtain ⟨-, hm, -⟩ := hother m l hm hl
    rw [ha.expired]
    exact h.expired m l hm hl

theorem Separate.step (h : s.Separate) (hok : s.Ok) (hP : s.ResumesAfterTeardown op)
    (hs : s.step op = some s') : s'.Separate := by
  rcases step_cases hs with
    ⟨n, connectionId, userId, sequenceNumber, newConnId, hnew, hn, rfl, hsock, hstore, -, hexp⟩ |
    ⟨n, k, k', ha⟩ | hq | ⟨id, c, hc, hina, rfl⟩ | ⟨id, rest, hx, rfl⟩
  · obtain ⟨id, c, hid, -, hact, hl, hcase⟩ := attach_cases hok connectionId userId sequenceNumber newConnId
    rw [hid] at hsock
    -- the sockets of the stream are finished, and it is not about to be purged
    have hfree : (∀ m k, s.sockets.lookup m = some k → k.connectionId = id → k.Finished) ∧
      id ∉ s.expired := by
      rcases hcase with ⟨rfl, -, hex⟩ | rfl
      · exact hP hex
      · exact ⟨fun m k hm he => absurd (he ▸ hok.sockets m k hm) hnew,
          fun hmem => hnew (hok.expired _ hmem)⟩
    refine ⟨fun m k hm hk => ?_, fun m₁ m₂ l₁ l₂ h₁ h₂ hne he => ?_, fun m k hm hk => ?_⟩
    · rw [hsock] at hm
      rw [hstore, hl]
      rcases Assoc.lookup_insert_cases hm with ⟨-, rfl⟩ | ⟨-, hm⟩
      · exact ⟨c, if_pos rfl, hact⟩
      · have hne : k.connectionId ≠ id := fun he => not_finished_of_live hk (hfree.1 m k hm he)
        rw [if_neg hne]; exact h.active m k hm hk
    · rw [hsock] at h₁ h₂
      rcases Assoc.lookup_insert_cases h₁ with ⟨e₁, rfl⟩ | ⟨-, h₁⟩ <;>
        rcases Assoc.lookup_insert_cases h₂ with ⟨e₂, rfl⟩ | ⟨-, h₂⟩
      · exact absurd (e₁.trans e₂.symm) hne
      · exact .inr (hfree.1 m₂ l₂ h₂ he.symm)
      · exact .inl (hfree.1 m₁ l₁ h₁ he)
      · exact h.alone m₁ m₂ l₁ l₂ h₁ h₂ hne he
    · rw [hsock] at hm
      rw [hexp]
      rcases Assoc.lookup_insert_cases hm with ⟨-, rfl⟩ | ⟨-, hm⟩
      · exact hfree.2
      · exact h.expired m k hm hk
  · exact h.advance ha
  · refine h.congr hq.sockets (fun n k hn hl => ?_) (by rw [hq.expired]; exact h.expired)
    have hmap := congrArg (Option.map Prod.snd) (hq.store k.connectionId)
    rwa [Option.map_map, Option.map_map] at hmap
  · refine h.congr rfl (fun n k hn hl => rfl) fun n k hn hl hmem => ?_
    rcases List.mem_append.1 hmem with hmem | hmem
    · exact h.expired n k hn hl hmem
    · obtain ⟨d, hd, ha⟩ := h.active n k hn hl
      rw [List.mem_singleton.1 hmem, hc] at hd
      cases hd
      rw [hina] at ha; cases ha
  · have hne : ∀ n k, s.sockets.lookup n = some k → k.Live → k.connectionId ≠ id := by
      intro n k hn hl he
      exact h.expired n k hn hl (by rw [hx, he]; exact List.mem_cons_self)
    refine h.congr rfl (fun n k hn hl => ?_) fun n k hn hl hmem => ?_
    · rw [ConnectionStore.lookup_purge, if_neg (hne n k hn hl)]
    · exact h.expired n k hn hl (by rw [hx]; exact List.mem_cons_of_mem _ hmem)

/-! ### Outside of the discipline -/

theorem step_actorExit {m : Nat} {k : Socket} (hm : s.sockets.lookup m = some k) (ha : k.actor = .running) :
    s.step (.actorExit m) = some { s with sockets := s.sockets.insert m { k with actor := .leaving } } := by
  simp only [step, update, hm, ha, ↓reduceIte, Option.map_some]

theorem step_actorDisconnect {m : Nat} {k : Socket} (hm : s.sockets.lookup m = some k)
    (ha : k.actor = .leaving) :
    s.step (.actorDisconnect m) = some { s with
      store := s.store.disconnectConnection k.connectionId s.now
      sockets := s.sockets.insert m { k with actor := .done } } := by
  simp only [step, hm, ha, ↓reduceIte]

theorem step_loopExit {m : Nat} {k : Socket} (hm : s.sockets.lookup m = some k) (ha : k.loop = .running) :
    s.step (.loopExit m) = some { s with sockets := s.sockets.insert m { k with loop := .leaving } } := by
  simp only [step, update, hm, ha, ↓reduceIte, Option.map_some]

theorem step_loopDisconnect {m : Nat} {k : Socket} (hm : s.sockets.lookup m = some k)
    (ha : k.loop = .leaving) :
    s.step (.loopDisconnect m) = some { s with
      store := s.store.disconnectConnection k.connectionId s.now
      sockets := s.sockets.insert m { k with loop := .done } } := by
  simp only [step, hm, ha, ↓reduceIte]

def Down (s : AttachState V) (id : String) : Prop :=
  ∀ c, s.store.connections.lookup id = some c → c.isActive = false

theorem down_disconnect (id : String) (m : Nat) (k : Socket) :
    Down { s with store := s.store.disconnectConnection id s.now, sockets := s.sockets.insert m k } id := by
  intro c hc
  simp only [ConnectionStore.lookup_disconnectConnection, ↓reduceIte] at hc
  obtain ⟨d, -, rfl⟩ := Option.map_eq_some_iff.1 hc
  rfl

theorem exists_teardown {m : Nat} {k : Socket} (hm : s.sockets.lookup m = some k) (hk : ¬ k.Finished) :
    ∃ ops t, Run.exec step s ops = some t ∧ t.Down k.connectionId ∧
      ∀ n, n ≠ m → t.sockets.lookup n = s.sockets.lookup n := by
  have hframe : ∀ (k₁ k₂ : Socket) n, n ≠ m →
      ((s.sockets.insert m k₁).insert m k₂).lookup n = s.sockets.lookup n := by
    intro k₁ k₂ n hn
    rw [Assoc.lookup_insert_eq, if_neg hn, Assoc.lookup_insert_eq, if_neg hn]
  rcases k with ⟨id, actor, loop⟩
  cases actor with
  | running =>
    have hexit := step_actorExit hm rfl
    have hdisc := step_actorDisconnect (s := { s with sockets := s.sockets.insert m ⟨id, .leaving, loop⟩ })
      Assoc.lookup_insert_self rfl
    refine ⟨_, _, Run.exec_cons_eq_some.2 ⟨_, hexit, Run.exec_singleton.trans hdisc⟩, ?_, hframe _ _⟩
    exact down_disconnect (s := { s with sockets := s.sockets.insert m ⟨id, .leaving, loop⟩ }) id m _
  | leaving =>
    refine ⟨_, _, Run.exec_singleton.trans (step_actorDisconnect hm rfl), down_disconnect id m _, ?_⟩
    exact fun n hn => by rw [Assoc.lookup_insert_eq, if_neg hn]
  | done =>
    cases loop with
    | running =>
      have hexit := step_loopExit hm rfl
      have hdisc := step_loopDisconnect (s := { s with sockets := s.sockets.insert m ⟨id, .done, .leaving⟩ })
        Assoc.lookup_insert_self rfl
      refine ⟨_, _, Run.exec_cons_eq_some.2 ⟨_, hexit, Run.exec_singleton.trans hdisc⟩, ?_, hframe _ _⟩
      exact down_disconnect (s := { s with sockets := s.sockets.insert m ⟨id, .done, .leaving⟩ }) id m _
    | leaving =>
      refine ⟨_, _, Run.exec_singleton.trans (step_loopDisconnect hm rfl), down_disconnect id m _, ?_⟩
      exact fun n hn => by rw [Assoc.lookup_insert_eq, if_neg hn]
    | done => exact absurd ⟨rfl, rfl⟩ hk

theorem exists_purge {id : String} (h : id ∈ s.expired) :
    ∃ ops t, Run.exec step s ops = some t ∧ t.Down id ∧ t.sockets = s.sockets := by
  obtain ⟨xs, hx⟩ : ∃ xs, s.expired = xs := ⟨_, rfl⟩
  induction xs generalizing s with
  | nil => rw [hx] at h; cases h
  | cons j xs ih =>
    have hstep : s.step .purge = some { s with store := s.store.purge j, expired := xs } := by
      simp only [step, hx]
    rw [hx] at h
    rcases List.mem_cons.1 h with rfl | h
    · refine ⟨_, _, Run.exec_singleton.trans hstep, fun c hc => ?_, rfl⟩
      simp only [ConnectionStore.lookup_purge, ↓reduceIte] at hc
      cases hc
    · obtain ⟨ops, t, ht, hd, hk⟩ := ih (s := { s with store := s.store.purge j, expired := xs }) h rfl
      exact ⟨.purge :: ops, t, Run.exec_cons_eq_some.2 ⟨_, hstep, ht⟩, hd, hk⟩

theorem not_liveSocketsActive_of_down {n : Nat} {k : Socket} (hn : s.sockets.lookup n = some k) (hk : k.Live)
    (h : s.Down k.connectionId) : ¬ s.LiveSocketsActive := by
  intro hall
  obtain ⟨c, hc, ha, -⟩ := hall n k hn hk
  rw [h c hc] at ha; cases ha

theorem exists_violation (hok : s.Ok) (hs : s.step op = some s') (hP : ¬ s.ResumesAfterTeardown op) :
    ∃ more, ¬ Run.AllStates step LiveSocketsActive s' more := by
  cases op with
  | attach n connectionId userId sequenceNumber newConnId =>
    cases connectionId with
    | none => exact absurd trivial hP
    | some id =>
      have hP' : ¬ ((∃ existing, s.store.connections.lookup id = some existing ∧ existing.userId = userId) →
        (∀ m k, s.sockets.lookup m = some k → k.connectionId = id → k.Finished) ∧ id ∉ s.expired) := hP
      simp only [Classical.not_imp, not_and_or, not_forall, not_not] at hP'
      obtain ⟨⟨existing, hl, hu⟩, hbad⟩ := hP'
      simp only [step, ConnectionStore.resumeOrCreate_of_owner hl hu] at hs
      split at hs
      · cases hs
      next hfree =>
      rw [not_or, Bool.not_eq_true, Option.isSome_eq_false_iff, Option.isNone_iff_eq_none] at hfree
      simp only [Option.some.injEq] at hs
      have hn : s'.sockets.lookup n = some ⟨id, .running, .running⟩ := by
        rw [← hs, Assoc.lookup_insert_self]
        simp only [ConnectionState.markActive, (hok.streams id existing hl).1]
      have hlive : (⟨id, .running, .running⟩ : Socket).Live := ⟨rfl, rfl⟩
      rcases hbad with ⟨m, k, hm, rfl, hk⟩ | hmem
      · have hne : n ≠ m := fun he => by rw [he, hm] at hfree; cases hfree.2
        have hm' : s'.sockets.lookup m = some k := by
          rw [← hs, Assoc.lookup_insert_eq, if_neg hne.symm]; exact hm
        obtain ⟨ops, t, ht, hd, hframe⟩ := exists_teardown hm' hk
        refine ⟨ops, fun hall => not_liveSocketsActive_of_down (n := n) ?_ hlive hd (hall.last ht)⟩
        rw [hframe n hne]; exact hn
      · have hmem' : id ∈ s'.expired := by rw [← hs]; exact hmem
        obtain ⟨ops, t, ht, hd, hk⟩ := exists_purge hmem'
        refine ⟨ops, fun hall => not_liveSocketsActive_of_down (n := n) ?_ hlive hd (hall.last ht)⟩
        rw [hk]; exact hn
  | _ => exact absurd trivial hP

/-- In every run that resumes streams only after their teardown, every live socket keeps its stream
active in every state. Any other resumption that a run can reach may be followed by steps after which
a live socket sits on an inactive or purged stream. -/
theorem live_iff :
    (∀ ops : List (AttachOp V), Run.AllSteps step ResumesAfterTeardown init ops →
      Run.AllStates step LiveSocketsActive init ops) ∧
    (∀ (ops : List (AttachOp V)) op s s', Run.exec step init ops = some s → s.step op = some s' →
      ¬ s.ResumesAfterTeardown op → ∃ more, ¬ Run.AllStates step LiveSocketsActive s' more) := by
  constructor
  · intro ops h
    have hinv : Run.AllStates step (fun s => s.Ok ∧ s.Separate) init ops :=
      Run.allStates_of_allSteps (fun s op s' hi hP hs => ⟨hi.1.step hs, hi.2.step hi.1 hP hs⟩)
        ⟨Ok.init, Separate.init⟩ h
    exact hinv.mono fun s hs => hs.2.liveSocketsActive
  · intro ops op s s' hs hstep hP
    have hok : s.Ok := Run.invariant_last (fun s op s' h hs => h.step hs) Ok.init hs
    exact exists_violation hok hstep hP

/-- The old socket `0` is past its loop when `1` resumes the stream: its late teardown marks the stream
inactive, and after five minutes the cleanup purges it under the live socket. -/
theorem late_teardown_purges :
    ∃ s : AttachState Nat,
      Run.exec step init [.attach 0 none 7 none "c", .actorExit 0, .loopExit 0, .loopDisconnect 0,
        .attach 1 (some "c") 7 (some 0) "d", .actorDisconnect 0, .wait 300001, .collect "c", .purge] = some s ∧
      (∃ k, s.sockets.lookup 1 = some k ∧ k.Live ∧ k.connectionId = "c") ∧
      s.store.getConnection "c" = none ∧ s.store.stillInactive "c" = true ∧ ¬ s.LiveSocketsActive := by
  refine ⟨_, rfl, ⟨_, rfl, by decide, rfl⟩, rfl, rfl, fun h => ?_⟩
  obtain ⟨c, hc, -⟩ := h 1 _ rfl (by decide)
  cases hc

end AttachState

end Rustchat
