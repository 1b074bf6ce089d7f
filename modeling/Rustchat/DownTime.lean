import Rustchat.Hub
import Rustchat.ConnStore
import Rustchat.WireEvents

/-!
# Events of the time without a socket (`api/v4/websocket.rs`, `realtime/websocket_actor.rs`)

The events of a stream reach its replay buffer through the hub forward task of the socket and only
through it. The task ends with the socket: `run_connection` aborts it before it marks the stream
disconnected, and where the actor task has marked it first the next send fails and ends the loop. An
event that is broadcast between the disconnect and the resumption is replayed exactly when no step of
the run drops it (`DownState.replays_iff`).

The runs are those of one socket from its start to the resumption of its stream, with any other traffic
on the hub. An event is known by the number of its broadcast.
-/

namespace Rustchat

/-- A message in the replay buffer: the event it comes from, which the snapshots of the main loop do not
have, and what is replayed. -/
structure Buffered where
  event : Option Nat
  payload : Json
deriving DecidableEq

structure SocketIds where
  codecs : Codecs
  userId : Uuid
  connectionId : String
  hubConnId : Uuid
  -- the hub asks for a channel of 100 messages and may be given a larger one
  spare : Nat

def SocketIds.capacity (k : SocketIds) : Nat := 100 + k.spare

inductive Forward where
  | listening
  | holding (event : Nat) (message : WebSocketMessage)
  | sending
  | ended
deriving DecidableEq

/-- How far `run_connection` is: in its main loop, or behind the abort of the forward task, behind
`actor.disconnect` or behind the hub's `remove_connection`. -/
inductive Teardown where
  | running
  | aborted
  | disconnected
  | removed
deriving DecidableEq

structure DownState where
  hub : WsHub
  store : ConnectionStore Buffered
  now : Instant
  -- the number of broadcasts so far
  issued : Nat
  -- what the hub sent to the socket and the forward task has not taken yet
  channel : List (Nat × WsEnvelope)
  forward : Forward
  isClosing : Bool
  actorDone : Bool
  teardown : Teardown
  -- the last number drawn when the stream was marked disconnected
  downAt : Option Int
  -- the events for the user that were broadcast since then
  window : List Nat
  -- what the resumption replayed
  replayed : Option (List Buffered)

inductive DownOp where
  | hub (op : HubOp)
  | broadcast (env : WsEnvelope)
  -- the forward task: `recv`, `queue_message`, `send`, and its cancellation
  | receive
  | queue
  | send (delivered : Bool)
  | cancel
  | close
  | actorDisconnect
  -- the main loop: a snapshot, and the steps of the cleanup
  | snapshot (payload : Json)
  | abort
  | loopDisconnect
  | removeConnection
  | wait (d : Nat)
  | resume (requestedSeq : Option Int) (newConnId : String)

/-- A stream of the user as its socket finds it at the start: none of its messages is an event of the run. -/
structure LiveStream (k : SocketIds) where
  conn : ConnectionState Buffered
  owner : conn.userId = k.userId
  before : ∀ m ∈ conn.messageBuffer, m.message.event = none

def replayPayload (m : WebSocketMessage) : Json :=
  .obj [("event", .str m.event), ("data", m.data), ("broadcast", m.broadcast.toJson)]

namespace DownState

variable (k : SocketIds)

/-- The socket is registered in the hub and attached to its stream. -/
def init (hubOps : List HubOp) (username : String) (store : ConnectionStore Buffered) (stream : LiveStream k)
    (now : Instant) : DownState where
  hub := (WsHub.run hubOps).addConnection k.userId username k.hubConnId
  store := { store with connections := store.connections.insert k.connectionId stream.conn }
  now := now
  issued := 0
  channel := []
  forward := .listening
  isClosing := false
  actorDone := false
  teardown := .running
  downAt := none
  window := []
  replayed := none

/-- The hub hands the envelope to the socket, and the socket still has a receiver. -/
def Arrives (s : DownState) (env : WsEnvelope) : Prop :=
  WsHub.handedTo (s.hub.broadcastLocal env) k.userId k.hubConnId ≠ [] ∧ s.forward ≠ .ended

/-- The broadcast is an event for the user while the stream has no socket. -/
def Due (s : DownState) (env : WsEnvelope) : Prop :=
  s.downAt.isSome = true ∧ s.hub.Addressed env.broadcast k.userId ∧
    (mapEnvelopeToMm k.codecs env).isSome = true

instance (s : DownState) (env : WsEnvelope) : Decidable (s.Arrives k env) :=
  inferInstanceAs (Decidable (_ ∧ _))
instance (s : DownState) (env : WsEnvelope) : Decidable (s.Due k env) :=
  inferInstanceAs (Decidable (_ ∧ _ ∧ _))

def channelAfter (s : DownState) (env : WsEnvelope) : List (Nat × WsEnvelope) :=
  if s.Arrives k env then Window.push k.capacity s.channel (s.issued, env) else s.channel

def due (s : DownState) (env : WsEnvelope) : List Nat := if s.Due k env then [s.issued] else []

def queueMessage (s : DownState) (m : Buffered) : DownState :=
  { s with store := (s.store.queueMessage k.connectionId m s.now).2 }

def disconnect (s : DownState) : DownState :=
  { s with
    store := s.store.disconnectConnection k.connectionId s.now
    downAt := s.downAt.or ((s.store.getConnection k.connectionId).map fun c => c.currentSequence - 1) }

def act (s : DownState) : DownOp → Option DownState
  | .hub op =>
    if op = .removeConnection k.userId k.hubConnId then none else some { s with hub := s.hub.apply op }
  | .broadcast env =>
    some { s with
      issued := s.issued + 1
      channel := s.channelAfter k env
      window := s.window ++ s.due k env }
  | .receive =>
    match s.forward, s.channel with
    | .listening, (n, env) :: rest =>
      match mapEnvelopeToMm k.codecs env with
      | some m => some { s with channel := rest, forward := .holding n m }
      | none => some { s with channel := rest }
    | _, _ => none
  | .queue =>
    match s.forward with
    | .holding n m => some { s.queueMessage k ⟨some n, replayPayload m⟩ with forward := .sending }
    | _ => none
  | .send delivered =>
    if s.forward = .sending then
      if delivered then
        if s.isClosing then none else some { s with forward := .listening }
      else some { s with forward := .ended, channel := [] }
    else none
  -- the task is cancelled at its only await
  | .cancel =>
    if s.teardown = .running ∨ s.forward ≠ .listening then none
    else some { s with forward := .ended, channel := [] }
  | .close => some { s with isClosing := true }
  | .actorDisconnect =>
    if s.isClosing = true ∧ s.actorDone = false then some { s.disconnect k with actorDone := true } else none
  | .snapshot payload =>
    if s.teardown = .running then some (s.queueMessage k ⟨none, payload⟩) else none
  | .abort => if s.teardown = .running then some { s with teardown := .aborted } else none
  | .loopDisconnect =>
    if s.teardown = .aborted then some { s.disconnect k with isClosing := true, teardown := .disconnected }
    else none
  | .removeConnection =>
    if s.teardown = .disconnected then
      some { s with hub := s.hub.removeConnection k.userId k.hubConnId, teardown := .removed }
    else none
  | .wait d => some { s with now := s.now + d }
  -- the client reports a number it can have been sent
  | .resume requestedSeq newConnId =>
    match s.downAt with
    | some last =>
      if requestedSeq.getD (-1) ≤ last then
        let answer := s.store.resumeOrCreate (some k.connectionId) k.userId requestedSeq newConnId s.now
        some { s with store := answer.2, replayed := some (answer.1.2.2.map SequencedMessage.message) }
      else none
    | none => none

def step (s : DownState) (op : DownOp) : Option DownState :=
  if s.replayed.isSome then none else s.act k op

def events (ms : List (SequencedMessage Buffered)) : List Nat := ms.filterMap fun m => m.message.event

def buffered (s : DownState) : List Nat :=
  ((s.store.getConnection k.connectionId).map fun c => events c.messageBuffer).getD []

def inHand (s : DownState) : List Nat :=
  match s.forward with
  | .holding n _ => [n]
  | _ => []

def inChannel (s : DownState) : List Nat := s.channel.map Prod.fst

/-- The events of the buffer, of the forward task and of its channel, oldest first. -/
def kept (s : DownState) : List Nat := s.buffered k ++ s.inHand ++ s.inChannel

/-- Before the resumption no event of the window is lost, and the resumption replays them all. -/
def Good (s : DownState) : Prop :=
  match s.replayed with
  | none => ∀ n ∈ s.window, n ∈ s.kept k
  | some r => ∀ n ∈ s.window, ∃ m ∈ r, m.event = some n

/-- The step drops no event of the window: neither on its way into the channel, nor out of the channel or
the buffer when they are full, nor with the end of the forward task, nor by replaying before it is buffered. -/
def DropsNothing (s : DownState) : DownOp → Prop
  | .broadcast env =>
    (s.Due k env → s.Arrives k env) ∧
      (s.Arrives k env → k.capacity ≤ s.channel.length → ∀ n ∈ s.inChannel.head?, n ∉ s.window)
  | .queue | .snapshot _ =>
    ∀ c, s.store.getConnection k.connectionId = some c → messageBufferSize ≤ c.messageBuffer.length →
      ∀ n ∈ events c.messageBuffer.head?.toList, n ∉ s.window
  | .send false | .cancel => ∀ n ∈ s.inChannel, n ∉ s.window
  | .resume _ _ => ∀ n ∈ s.inHand ++ s.inChannel, n ∉ s.window
  | _ => True

variable {k} {s s' : DownState} {op : DownOp}

theorem events_append (as bs : List (SequencedMessage Buffered)) :
    events (as ++ bs) = events as ++ events bs :=
  List.filterMap_append

/-- Pushing a message appends its event and drops the event of the oldest message of a full buffer. -/
theorem events_push (ms : List (SequencedMessage Buffered)) (x : SequencedMessage Buffered) :
    ∃ dropped rest, events ms = dropped ++ rest ∧
      events (Window.push messageBufferSize ms x) = rest ++ x.message.event.toList ∧
      ∀ n, n ∈ dropped ↔ messageBufferSize ≤ ms.length ∧ n ∈ events ms.head?.toList := by
  have hx : events [x] = x.message.event.toList := by
    rw [events, List.filterMap_cons]
    cases x.message.event <;> rfl
  by_cases hfull : messageBufferSize ≤ ms.length
  · refine ⟨events ms.head?.toList, events ms.tail, ?_, ?_, fun n => ⟨fun h => ⟨hfull, h⟩, And.right⟩⟩
    · rw [← events_append]
      cases ms <;> rfl
    · rw [Window.push, if_pos hfull, events_append, hx]
  · refine ⟨[], events ms, rfl, ?_, fun n => ⟨fun h => (by cases h), fun h => absurd h.1 hfull⟩⟩
    rw [Window.push, if_neg hfull, events_append, hx]

theorem buffered_of_stored {c : ConnectionState Buffered} (h : s.store.getConnection k.connectionId = some c) :
    s.buffered k = events c.messageBuffer := by
  rw [buffered, h]; rfl

theorem getConnection_queueMessage {c : ConnectionState Buffered} {m : Buffered}
    (h : s.store.getConnection k.connectionId = some c) :
    (s.queueMessage k m).store.getConnection k.connectionId =
      some ((c.nextSequence.2).bufferMessage c.sequence m s.now) := by
  show (s.store.queueMessage k.connectionId m s.now).2.connections.lookup k.connectionId = _
  have hl : s.store.connections.lookup k.connectionId = some c := h
  rw [ConnectionStore.lookup_queueMessage, if_pos rfl, hl]; rfl

theorem getConnection_disconnect {c : ConnectionState Buffered}
    (h : s.store.getConnection k.connectionId = some c) :
    (s.disconnect k).store.getConnection k.connectionId = some (c.markInactive s.now) := by
  show (s.store.disconnectConnection k.connectionId s.now).connections.lookup k.connectionId = _
  have hl : s.store.connections.lookup k.connectionId = some c := h
  rw [ConnectionStore.lookup_disconnectConnection, if_pos rfl, hl]; rfl

/-- The stream is stored under its owner, and the events of the window were queued after the last number
drawn before the stream went down. -/
def StreamOk (k : SocketIds) (s : DownState) : Prop :=
  ∃ c, s.store.getConnection k.connectionId = some c ∧ c.userId = k.userId ∧
    ∀ last, s.downAt = some last → last < c.sequence ∧
      ∀ m ∈ c.messageBuffer, ∀ n ∈ s.window, m.message.event = some n → last < m.seq

structure Ok (k : SocketIds) (s : DownState) : Prop where
  stream : s.StreamOk k
  sorted : (s.kept k).Pairwise (· < ·)
  fresh : ∀ n ∈ s.kept k, n < s.issued
  window : ∀ n ∈ s.window, n < s.issued ∧ s.downAt.isSome = true
  mapped : ∀ x ∈ s.channel, x.1 ∈ s.window → (mapEnvelopeToMm k.codecs x.2).isSome = true

theorem StreamOk.queueMessage (h : s.StreamOk k) (m : Buffered) : (s.queueMessage k m).StreamOk k := by
  obtain ⟨c, hc, hu, hl⟩ := h
  refine ⟨_, getConnection_queueMessage hc, hu, fun last hlast => ?_⟩
  obtain ⟨hlt, hbuf⟩ := hl last hlast
  refine ⟨Int.lt_trans hlt (Int.lt_succ _), fun x hx n hn he => ?_⟩
  rcases Window.mem_push hx with hx | rfl
  · exact hbuf x hx n hn he
  · exact hlt

theorem StreamOk.disconnect (h : s.StreamOk k) (hw : ∀ n ∈ s.window, s.downAt.isSome = true) :
    (s.disconnect k).StreamOk k := by
  obtain ⟨c, hc, hu, hl⟩ := h
  refine ⟨_, getConnection_disconnect hc, hu, fun last hlast => ?_⟩
  have hdown : (s.downAt.or ((s.store.getConnection k.connectionId).map fun c => c.currentSequence - 1)) =
      some last := hlast
  rw [hc] at hdown
  cases hd : s.downAt with
  | some last' =>
    rw [hd] at hdown
    obtain rfl : last' = last := by simpa using hdown
    exact hl last' hd
  | none =>
    rw [hd] at hdown
    obtain rfl : c.sequence - 1 = last := by simpa [ConnectionState.currentSequence] using hdown
    refine ⟨Int.sub_one_lt_of_le (Int.le_refl _), fun m _ n hn => ?_⟩
    have hsome := hw n hn
    rw [hd] at hsome
    cases hsome

/-- The events move on in order: some are dropped, a new one may arrive and may be due. -/
def Moves (k : SocketIds) (s s' : DownState) (op : DownOp) : Prop :=
  ∃ l₁ dropped l₂ arrived due, s.kept k = l₁ ++ dropped ++ l₂ ∧ s'.kept k = l₁ ++ l₂ ++ arrived ∧
    s'.window = s.window ++ due ∧ s'.replayed = none ∧
    (∀ n ∈ arrived, n = s.issued) ∧ (∀ n ∈ due, n = s.issued ∧ s.downAt.isSome = true) ∧ arrived.length ≤ 1 ∧
    ((arrived = [] ∧ due = [] ∧ s'.issued = s.issued) ∨ s'.issued = s.issued + 1) ∧
    (s.DropsNothing k op ↔ (∀ n ∈ due, n ∈ arrived) ∧ ∀ n ∈ dropped, n ∉ s.window)

theorem Moves.of_kept_eq (hk : s'.kept k = s.kept k) (hw : s'.window = s.window) (hr : s'.replayed = none)
    (hi : s'.issued = s.issued) (hP : s.DropsNothing k op) : s.Moves k s' op := by
  refine ⟨s.kept k, [], [], [], [], by simp, by simpa using hk, by simpa using hw, hr, by simp, by simp, by simp,
    .inl ⟨rfl, rfl, hi⟩, ?_⟩
  simp [hP]

theorem Moves.of_drop (l₁ dropped l₂ : List Nat) (hk : s.kept k = l₁ ++ dropped ++ l₂) (hk' : s'.kept k = l₁ ++ l₂)
    (hw : s'.window = s.window) (hr : s'.replayed = none) (hi : s'.issued = s.issued)
    (hP : s.DropsNothing k op ↔ ∀ n ∈ dropped, n ∉ s.window) : s.Moves k s' op := by
  refine ⟨l₁, dropped, l₂, [], [], hk, by simpa using hk', by simpa using hw, hr, by simp, by simp, by simp,
    .inl ⟨rfl, rfl, hi⟩, ?_⟩
  simp [hP]

theorem moves_queueMessage (h : s.StreamOk k) (m : Buffered) :
    ∃ dropped rest, s.buffered k = dropped ++ rest ∧ (s.queueMessage k m).buffered k = rest ++ m.event.toList ∧
      ((∀ c, s.store.getConnection k.connectionId = some c → messageBufferSize ≤ c.messageBuffer.length →
        ∀ n ∈ events c.messageBuffer.head?.toList, n ∉ s.window) ↔ ∀ n ∈ dropped, n ∉ s.window) := by
  obtain ⟨c, hc, -, -⟩ := h
  obtain ⟨dropped, rest, h1, h2, h3⟩ := events_push c.messageBuffer ⟨c.sequence, m, s.now⟩
  refine ⟨dropped, rest, (buffered_of_stored hc).trans h1,
    (buffered_of_stored (getConnection_queueMessage hc)).trans h2, ?_⟩
  constructor
  · intro hP n hn
    obtain ⟨hfull, hhead⟩ := (h3 n).1 hn
    exact hP c hc hfull n hhead
  · intro hP c' hc' hfull n hn
    rw [hc] at hc'
    obtain rfl : c = c' := by simpa using hc'
    exact hP n ((h3 n).2 ⟨hfull, hn⟩)

theorem buffered_disconnect (h : s.StreamOk k) : (s.disconnect k).buffered k = s.buffered k := by
  obtain ⟨c, hc, -, -⟩ := h
  rw [buffered_of_stored hc, buffered_of_stored (getConnection_disconnect hc)]; rfl

theorem mem_due {env : WsEnvelope} {n : Nat} : n ∈ s.due k env ↔ s.Due k env ∧ n = s.issued := by
  unfold due
  split
  · next h => simp [h]
  · next h => simp [h]

/-- An envelope that arrives is appended to the channel, whose oldest entry is lost when it is full. -/
theorem channelAfter_cases (env : WsEnvelope) :
    ∃ dropped rest arrived, s.inChannel = dropped ++ rest ∧ (s.channelAfter k env).map Prod.fst = rest ++ arrived ∧
      arrived.length ≤ 1 ∧ (∀ n, n ∈ arrived ↔ s.Arrives k env ∧ n = s.issued) ∧
      ∀ n, n ∈ dropped ↔ s.Arrives k env ∧ k.capacity ≤ s.channel.length ∧ n ∈ s.inChannel.head? := by
  unfold channelAfter
  split
  · next ha =>
    rw [Window.map_push, Window.push, ← inChannel]
    have hlen : s.inChannel.length = s.channel.length := List.length_map ..
    rw [hlen]
    by_cases hfull : k.capacity ≤ s.channel.length
    · refine ⟨s.inChannel.head?.toList, s.inChannel.tail, [s.issued], ?_, by rw [if_pos hfull], by simp,
        ?_, ?_⟩
      · cases s.inChannel <;> rfl
      · simp [ha]
      · simp [ha, hfull]
    · exact ⟨[], s.inChannel, [s.issued], rfl, by rw [if_neg hfull], by simp, by simp [ha], by simp [hfull]⟩
  · next ha => exact ⟨[], s.inChannel, [], rfl, (List.append_nil _).symm, by simp, by simp [ha], by simp [ha]⟩

theorem moves_broadcast {env : WsEnvelope} (hr : s.replayed = none)
    (hs : s.act k (.broadcast env) = some s') : s.Moves k s' (.broadcast env) := by
  obtain ⟨dropped, rest, arrived, h1, h2, hlen, harr, hdrop⟩ := s.channelAfter_cases (k := k) env
  simp only [act, Option.some.injEq] at hs
  subst hs
  refine ⟨s.buffered k ++ s.inHand, dropped, rest, arrived, s.due k env, ?_, ?_, rfl, hr,
    fun n hn => ((harr n).1 hn).2, fun n hn => ?_, hlen, .inr rfl, ?_⟩
  · rw [kept, h1, List.append_assoc _ dropped]
  · show s.buffered k ++ s.inHand ++ (s.channelAfter k env).map Prod.fst = _
    rw [h2, List.append_assoc _ rest]
  · obtain ⟨hd, hn⟩ := mem_due.1 hn
    exact ⟨hn, hd.1⟩
  · constructor
    · rintro ⟨hdue, hfull⟩
      refine ⟨fun n hn => ?_, fun n hn => ?_⟩
      · obtain ⟨hd, rfl⟩ := mem_due.1 hn
        exact (harr _).2 ⟨hdue hd, rfl⟩
      · obtain ⟨ha, hc, hn⟩ := (hdrop n).1 hn
        exact hfull ha hc n hn
    · rintro ⟨hdue, hfull⟩
      refine ⟨fun hd => ?_, fun ha hc n hn => hfull n ((hdrop n).2 ⟨ha, hc, hn⟩)⟩
      exact ((harr _).1 (hdue s.issued (mem_due.2 ⟨hd, rfl⟩))).1

structure Frame (s s' : DownState) : Prop where
  issued : s'.issued = s.issued
  window : s'.window = s.window
  replayed : s'.replayed = s.replayed

theorem act_resume {requestedSeq : Option Int} {newConnId : String}
    (hs : s.act k (.resume requestedSeq newConnId) = some s') :
    ∃ last, s.downAt = some last ∧ requestedSeq.getD (-1) ≤ last ∧ s'.window = s.window ∧
      s'.replayed = some ((s.store.resumeOrCreate (some k.connectionId) k.userId requestedSeq newConnId
        s.now).1.2.2.map SequencedMessage.message) := by
  simp only [act] at hs
  split at hs
  · next last hl =>
    split at hs
    · next hle => cases hs; exact ⟨last, hl, hle, rfl, rfl⟩
    · cases hs
  · cases hs

theorem act_cases (hs : s.act k op = some s') :
    (s.Frame s' ∧ s'.store = s.store ∧ s'.downAt = s.downAt ∧ s'.channel = s.channel ∧ s'.inHand = s.inHand ∧
      s.DropsNothing k op) ∨
    (∃ env, op = .broadcast env ∧
      s' = { s with
        issued := s.issued + 1
        channel := s.channelAfter k env
        window := s.window ++ s.due k env }) ∨
    (∃ n env, s.Frame s' ∧ s'.store = s.store ∧ s'.downAt = s.downAt ∧ s.channel = (n, env) :: s'.channel ∧
      s.inHand = [] ∧ s'.inHand = (if (mapEnvelopeToMm k.codecs env).isSome then [n] else []) ∧
      s.DropsNothing k op) ∨
    (∃ m, s.Frame s' ∧ s'.store = (s.queueMessage k m).store ∧ s'.downAt = s.downAt ∧ s'.channel = s.channel ∧
      s.inHand = m.event.toList ++ s'.inHand ∧ (s.DropsNothing k op ↔ s.DropsNothing k .queue)) ∨
    (s.Frame s' ∧ s'.store = s.store ∧ s'.downAt = s.downAt ∧ s'.channel = [] ∧ s.inHand = [] ∧ s'.inHand = [] ∧
      (s.DropsNothing k op ↔ s.DropsNothing k .cancel)) ∨
    (s.Frame s' ∧ s'.store = (s.disconnect k).store ∧ s'.downAt = (s.disconnect k).downAt ∧
      s'.channel = s.channel ∧ s'.inHand = s.inHand ∧ s.DropsNothing k op) ∨
    (∃ requestedSeq newConnId, op = .resume requestedSeq newConnId) := by
  cases op with
  | hub o =>
    simp only [act] at hs
    split at hs
    · cases hs
    · cases hs; exact .inl ⟨⟨rfl, rfl, rfl⟩, rfl, rfl, rfl, rfl, trivial⟩
  | broadcast env => cases hs; exact .inr (.inl ⟨env, rfl, rfl⟩)
  | receive =>
    simp only [act] at hs
    split at hs
    · next n env rest hf hch =>
      have hhand : s.inHand = [] := by rw [inHand, hf]
      refine .inr (.inr (.inl ⟨n, env, ?_⟩))
      split at hs
      · next m hm => cases hs; exact ⟨⟨rfl, rfl, rfl⟩, rfl, rfl, hch, hhand, by rw [hm]; rfl, trivial⟩
      · next hm => cases hs; exact ⟨⟨rfl, rfl, rfl⟩, rfl, rfl, hch, hhand, by rw [hm]; exact hhand, trivial⟩
    · cases hs
  | queue =>
    simp only [act] at hs
    split at hs
    · next n m hf =>
      cases hs
      refine .inr (.inr (.inr (.inl ⟨⟨some n, replayPayload m⟩, ⟨rfl, rfl, rfl⟩, rfl, rfl, rfl, ?_, Iff.rfl⟩)))
      rw [inHand, hf]; rfl
    · cases hs
  | send delivered =>
    simp only [act] at hs
    split at hs
    · next hf =>
      have hhand : s.inHand = [] := by rw [inHand, hf]
      cases delivered with
      | true =>
        simp only [↓reduceIte] at hs
        split at hs
        · cases hs
        · cases hs; exact .inl ⟨⟨rfl, rfl, rfl⟩, rfl, rfl, rfl, hhand.symm, trivial⟩
      | false =>
        cases hs
        exact .inr (.inr (.inr (.inr (.inl ⟨⟨rfl, rfl, rfl⟩, rfl, rfl, rfl, hhand, rfl, Iff.rfl⟩))))
    · cases hs
  | cancel =>
    simp only [act] at hs
    split at hs
    · cases hs
    · next hf =>
      rw [not_or, not_not] at hf
      have hhand : s.inHand = [] := by rw [inHand, hf.2]
      cases hs
      exact .inr (.inr (.inr (.inr (.inl ⟨⟨rfl, rfl, rfl⟩, rfl, rfl, rfl, hhand, rfl, Iff.rfl⟩))))
  | close => cases hs; exact .inl ⟨⟨rfl, rfl, rfl⟩, rfl, rfl, rfl, rfl, trivial⟩
  | actorDisconnect =>
    simp only [act] at hs
    split at hs
    · cases hs
      exact .inr (.inr (.inr (.inr (.inr (.inl ⟨⟨rfl, rfl, rfl⟩, rfl, rfl, rfl, rfl, trivial⟩)))))
    · cases hs
  | snapshot payload =>
    simp only [act] at hs
    split at hs
    · cases hs
      exact .inr (.inr (.inr (.inl ⟨⟨none, payload⟩, ⟨rfl, rfl, rfl⟩, rfl, rfl, rfl, rfl, Iff.rfl⟩)))
    · cases hs
  | abort =>
    simp only [act] at hs
    split at hs
    · cases hs; exact .inl ⟨⟨rfl, rfl, rfl⟩, rfl, rfl, rfl, rfl, trivial⟩
    · cases hs
  | loopDisconnect =>
    simp only [act] at hs
    split at hs
    · cases hs
      exact .inr (.inr (.inr (.inr (.inr (.inl ⟨⟨rfl, rfl, rfl⟩, rfl, rfl, rfl, rfl, trivial⟩)))))
    · cases hs
  | removeConnection =>
    simp only [act] at hs
    split at hs
    · cases hs; exact .inl ⟨⟨rfl, rfl, rfl⟩, rfl, rfl, rfl, rfl, trivial⟩
    · cases hs
  | wait d => cases hs; exact .inl ⟨⟨rfl, rfl, rfl⟩, rfl, rfl, rfl, rfl, trivial⟩
  | resume requestedSeq newConnId =>
    exact .inr (.inr (.inr (.inr (.inr (.inr ⟨requestedSeq, newConnId, rfl⟩)))))

theorem buffered_congr (h : s'.store = s.store) : s'.buffered k = s.buffered k := by rw [buffered, h]; rfl

theorem StreamOk.congr (h : s.StreamOk k) (hs : s'.store = s.store) (hd : s'.downAt = s.downAt)
    (hw : s'.window = s.window) : s'.StreamOk k := by
  unfold StreamOk
  rw [hs, hd, hw]; exact h

theorem step_moves (h : s.Ok k) (hr : s.replayed = none) (hop : ∀ r c, op ≠ .resume r c)
    (hs : s.act k op = some s') : s.Moves k s' op := by
  rcases act_cases hs with ⟨hf, hst, -, hch, hh, hP⟩ | ⟨env, rfl, -⟩ | ⟨n, env, hf, hst, -, hch, hh, hh', hP⟩ |
    ⟨m, hf, hst, -, hch, hh, hP⟩ | ⟨hf, hst, -, hch, hh, hh', hP⟩ | ⟨hf, hst, -, hch, hh, hP⟩ |
    ⟨r, c, rfl⟩
  · exact .of_kept_eq (by rw [kept, kept, buffered_congr hst, hh, inChannel, hch]; rfl) hf.window
      (hf.replayed.trans hr) hf.issued hP
  · exact moves_broadcast hr hs
  · have hk : s.kept k = s.buffered k ++ [n] ++ s'.inChannel := by
      rw [kept, hh, inChannel, hch, List.append_nil]; simp [inChannel]
    by_cases hm : (mapEnvelopeToMm k.codecs env).isSome
    · rw [if_pos hm] at hh'
      exact .of_kept_eq (by rw [hk, kept, buffered_congr hst, hh']) hf.window (hf.replayed.trans hr) hf.issued hP
    · rw [if_neg hm] at hh'
      refine .of_drop _ _ _ hk (by rw [kept, buffered_congr hst, hh', List.append_nil]) hf.window
        (hf.replayed.trans hr) hf.issued ⟨fun _ n' hn' => ?_, fun _ => hP⟩
      -- an event of the window has a Mattermost message
      obtain rfl := List.mem_singleton.1 hn'
      intro hw
      exact hm (h.mapped (n', env) (by rw [hch]; exact List.mem_cons_self) hw)
  · obtain ⟨dropped, rest, h1, h2, h3⟩ := moves_queueMessage h.stream m
    have hb : s'.buffered k = rest ++ m.event.toList := (buffered_congr hst).trans h2
    refine .of_drop [] dropped (rest ++ s.inHand ++ s.inChannel) ?_ ?_ hf.window
      (hf.replayed.trans hr) hf.issued (hP.trans h3)
    · rw [kept, h1]; simp
    · rw [kept, hb, hh, inChannel, hch]; simp [inChannel]
  · refine .of_drop (s.buffered k) s.inChannel [] ?_ ?_ hf.window
      (hf.replayed.trans hr) hf.issued hP
    · rw [kept, hh]; simp
    · simp [kept, buffered_congr hst, hh', inChannel, hch]
  · have hb : s'.buffered k = s.buffered k := (buffered_congr hst).trans (buffered_disconnect h.stream)
    exact .of_kept_eq (by rw [kept, kept, hb, hh, inChannel, hch]; rfl) hf.window (hf.replayed.trans hr) hf.issued hP
  · exact absurd rfl (hop r c)

/-! ### Invariants -/

theorem step_stream (h : s.Ok k) (hop : ∀ r c, op ≠ .resume r c) (hs : s.act k op = some s') :
    s'.StreamOk k := by
  have hw : ∀ n ∈ s.window, s.downAt.isSome = true := fun n hn => (h.window n hn).2
  rcases act_cases hs with ⟨hf, hst, hd, -⟩ | ⟨env, rfl, rfl⟩ | ⟨n, env, hf, hst, hd, -⟩ |
    ⟨m, hf, hst, hd, -⟩ | ⟨hf, hst, hd, -⟩ | ⟨hf, hst, hd, -⟩ | ⟨r, c, rfl⟩
  · exact h.stream.congr hst hd hf.window
  · obtain ⟨c, hc, hu, hl⟩ := h.stream
    refine ⟨c, hc, hu, fun last hlast => ⟨(hl last hlast).1, fun m hm n hn he => ?_⟩⟩
    rcases List.mem_append.1 hn with hn | hn
    · exact (hl last hlast).2 m hm n hn he
    · -- the new event is not buffered yet
      obtain ⟨-, rfl⟩ := mem_due.1 hn
      have hmem : s.issued ∈ s.kept k := by
        rw [kept, buffered_of_stored hc, List.append_assoc]
        exact List.mem_append_left _ (List.mem_filterMap.2 ⟨m, hm, he⟩)
      exact absurd (h.fresh _ hmem) (Nat.lt_irrefl _)
  · exact h.stream.congr hst hd hf.window
  · exact (h.stream.queueMessage m).congr hst hd hf.window
  · exact h.stream.congr hst hd hf.window
  · exact (h.stream.disconnect hw).congr hst hd hf.window
  · exact absurd rfl (hop r c)

theorem step_downAt (hs : s.act k op = some s') (h : s.downAt.isSome = true) (hop : ∀ r c, op ≠ .resume r c) :
    s'.downAt.isSome = true := by
  rcases act_cases hs with ⟨-, -, hd, -⟩ | ⟨env, -, rfl⟩ | ⟨n, env, -, -, hd, -⟩ | ⟨m, -, -, hd, -⟩ |
    ⟨-, -, hd, -⟩ | ⟨-, -, hd, -⟩ | ⟨r, c, rfl⟩
  · rw [hd]; exact h
  · exact h
  · rw [hd]; exact h
  · rw [hd]; exact h
  · rw [hd]; exact h
  · rw [hd, disconnect]
    cases hdown : s.downAt with
    | none => rw [hdown] at h; cases h
    | some last => rfl
  · exact absurd rfl (hop r c)

theorem step_mapped (h : s.Ok k) (hop : ∀ r c, op ≠ .resume r c) (hs : s.act k op = some s') :
    ∀ x ∈ s'.channel, x.1 ∈ s'.window → (mapEnvelopeToMm k.codecs x.2).isSome = true := by
  have hold : ∀ x ∈ s.channel, x.1 < s.issued := fun x hx =>
    h.fresh _ (List.mem_append_right _ (List.mem_map_of_mem hx))
  rcases act_cases hs with ⟨hf, -, -, hch, -⟩ | ⟨env, rfl, rfl⟩ | ⟨n, env, hf, -, -, hch, -⟩ |
    ⟨m, hf, -, -, hch, -⟩ | ⟨hf, -, -, hch, -⟩ | ⟨hf, -, -, hch, -⟩ | ⟨r, c, rfl⟩
  · rw [hch, hf.window]; exact h.mapped
  · intro x hx hn
    have hx' : x ∈ s.channel ∨ x = (s.issued, env) := by
      have hx : x ∈ s.channelAfter k env := hx
      unfold channelAfter at hx
      split at hx
      · exact Window.mem_push hx
      · exact .inl hx
    rcases hx' with hx' | rfl
    · rcases List.mem_append.1 hn with hn | hn
      · exact h.mapped x hx' hn
      · exact absurd (hold x hx') (by rw [(mem_due.1 hn).2]; exact Nat.lt_irrefl _)
    · rcases List.mem_append.1 hn with hn | hn
      · exact absurd (h.window _ hn).1 (Nat.lt_irrefl _)
      · exact (mem_due.1 hn).1.2.2
  · intro x hx
    rw [hf.window]
    exact h.mapped x (by rw [hch]; exact List.mem_cons_of_mem _ hx)
  · rw [hch, hf.window]; exact h.mapped
  · intro x hx
    rw [hch] at hx; cases hx
  · rw [hch, hf.window]; exact h.mapped
  · exact absurd rfl (hop r c)

theorem Ok.act (h : s.Ok k) (hr : s.replayed = none) (hop : ∀ r c, op ≠ .resume r c)
    (hs : s.act k op = some s') : s'.Ok k := by
  obtain ⟨l₁, dropped, l₂, arrived, due, hk, hk', hw, -, harr, hdue, hlen, hi, -⟩ := step_moves h hr hop hs
  have hsub : (l₁ ++ l₂).Sublist (s.kept k) := by
    rw [hk]; exact (List.sublist_append_left l₁ dropped).append_right l₂
  refine ⟨step_stream h hop hs, ?_, fun n hn => ?_, fun n hn => ?_, step_mapped h hop hs⟩
  · rw [hk', List.pairwise_append]
    refine ⟨h.sorted.sublist hsub, ?_, fun a ha b hb => ?_⟩
    · rcases arrived with - | ⟨a, - | ⟨b, rest⟩⟩
      · exact .nil
      · exact List.pairwise_singleton _ _
      · simp at hlen
    · rw [harr b hb]; exact h.fresh a (hsub.subset ha)
  · rw [hk'] at hn
    rcases List.mem_append.1 hn with hn | hn
    · have := h.fresh n (hsub.subset hn)
      rcases hi with ⟨-, -, hi⟩ | hi <;> omega
    · have := harr n hn
      rcases hi with ⟨rfl, -⟩ | hi
      · cases hn
      · omega
  · rw [hw] at hn
    rcases List.mem_append.1 hn with hn | hn
    · have := h.window n hn
      refine ⟨?_, step_downAt hs this.2 hop⟩
      rcases hi with ⟨-, -, hi⟩ | hi <;> omega
    · obtain ⟨hn', hd⟩ := hdue n hn
      refine ⟨?_, step_downAt hs hd hop⟩
      rcases hi with ⟨-, rfl, -⟩ | hi
      · cases hn
      · omega

theorem ok_init (hubOps : List HubOp) (username : String) (store : ConnectionStore Buffered) (stream : LiveStream k)
    (now : Instant) : (init k hubOps username store stream now).Ok k := by
  have hc : (init k hubOps username store stream now).store.getConnection k.connectionId = some stream.conn :=
    AList.lookup_insert _
  have hk : (init k hubOps username store stream now).kept k = [] := by
    rw [kept, buffered_of_stored hc]
    have he : events stream.conn.messageBuffer = [] := List.filterMap_eq_nil_iff.2 stream.before
    rw [he]; rfl
  refine ⟨⟨_, hc, stream.owner, fun _ h => by cases h⟩, ?_, ?_, fun _ h => by (cases h),
    fun _ h => by cases h⟩
  · rw [hk]; exact .nil
  · rw [hk]; exact fun _ h => by cases h

/-! ### The replay -/

theorem Ok.nodup (h : s.Ok k) : (s.kept k).Nodup := h.sorted.imp Nat.ne_of_lt

theorem moves_good_iff (h : s.Ok k) (hg : ∀ n ∈ s.window, n ∈ s.kept k) (hm : s.Moves k s' op) :
    s'.Good k ↔ s.DropsNothing k op := by
  obtain ⟨l₁, dropped, l₂, arrived, due, hk, hk', hw, hr, harr, hdue, -, -, hP⟩ := hm
  have hcov := Window.covers_iff (W := s.window) (by rw [← hk]; exact h.nodup) (by rw [← hk]; exact hg)
  rw [hP, ← hcov, Good, hr]
  show (∀ n ∈ s'.window, n ∈ s'.kept k) ↔ _
  rw [hw, hk']
  constructor
  · intro hall
    refine ⟨fun n hn => ?_, fun n hn => ?_⟩
    · rcases List.mem_append.1 (hall n (List.mem_append_right _ hn)) with hl | ha
      · have hfresh := h.fresh n (by rw [hk]; simp only [List.mem_append] at hl ⊢; tauto)
        rw [(hdue n hn).1] at hfresh
        exact absurd hfresh (Nat.lt_irrefl _)
      · exact ha
    · rcases List.mem_append.1 (hall n (List.mem_append_left _ hn)) with hl | ha
      · exact hl
      · have hlt := (h.window n hn).1
        rw [harr n ha] at hlt
        exact absurd hlt (Nat.lt_irrefl _)
  · rintro ⟨hd, hold⟩ n hn
    rcases List.mem_append.1 hn with hn | hn
    · exact List.mem_append_left _ (hold n hn)
    · exact List.mem_append_right _ (hd n hn)

theorem mem_replay {requestedSeq : Option Int} {newConnId : String} {last : Int} {n : Nat} (h : s.StreamOk k)
    (hl : s.downAt = some last) (hle : requestedSeq.getD (-1) ≤ last) (hn : n ∈ s.window) :
    (∃ m ∈ (s.store.resumeOrCreate (some k.connectionId) k.userId requestedSeq newConnId
        s.now).1.2.2.map SequencedMessage.message, m.event = some n) ↔ n ∈ s.buffered k := by
  obtain ⟨c, hc, hu, hseq⟩ := h
  rw [buffered_of_stored hc, ConnectionStore.resumeOrCreate_of_owner hc hu]
  show (∃ m ∈ ((c.markActive s.now).getMissedMessages _).map SequencedMessage.message, _) ↔ _
  constructor
  · rintro ⟨m, hm, he⟩
    obtain ⟨x, hx, rfl⟩ := List.mem_map.1 hm
    exact List.mem_filterMap.2 ⟨x, (List.mem_filter.1 hx).1, he⟩
  · intro hb
    obtain ⟨x, hx, he⟩ := List.mem_filterMap.1 hb
    refine ⟨x.message, List.mem_map_of_mem (List.mem_filter.2 ⟨hx, ?_⟩), he⟩
    exact decide_eq_true (Int.lt_of_le_of_lt hle ((hseq last hl).2 x hx n hn he))

theorem resume_good_iff (h : s.Ok k) (hg : ∀ n ∈ s.window, n ∈ s.kept k) {requestedSeq : Option Int}
    {newConnId : String} (hs : s.act k (.resume requestedSeq newConnId) = some s') :
    s'.Good k ↔ s.DropsNothing k (.resume requestedSeq newConnId) := by
  obtain ⟨last, hl, hle, hw, hr⟩ := act_resume hs
  have hk : s.kept k = s.buffered k ++ (s.inHand ++ s.inChannel) ++ [] := by
    rw [kept, List.append_nil, List.append_assoc]
  have hcov := Window.covers_iff (W := s.window) (by rw [← hk]; exact h.nodup) (by rw [← hk]; exact hg)
  rw [Good, hr]
  show (∀ n ∈ s'.window, _) ↔ ∀ n ∈ s.inHand ++ s.inChannel, n ∉ s.window
  rw [← hcov, hw, List.append_nil]
  exact forall₂_congr fun n hn => mem_replay h.stream hl hle hn

theorem step_eq_some (hs : s.step k op = some s') : s.replayed = none ∧ s.act k op = some s' := by
  unfold step at hs
  split at hs
  · cases hs
  · next h => exact ⟨by simpa using h, hs⟩

theorem isResume_or (op : DownOp) : (∃ r c, op = .resume r c) ∨ ∀ r c, op ≠ .resume r c := by
  by_cases h : ∃ r c, op = .resume r c
  · exact .inl h
  · exact .inr fun r c he => h ⟨r, c, he⟩

theorem step_ok (h : s.replayed = none → s.Ok k) (hs : s.step k op = some s') :
    s'.replayed = none → s'.Ok k := by
  intro hr'
  obtain ⟨hr, hact⟩ := step_eq_some hs
  rcases isResume_or op with ⟨r, c, rfl⟩ | hop
  · obtain ⟨-, -, -, -, hr''⟩ := act_resume hact
    rw [hr'] at hr''; cases hr''
  · exact (h hr).act hr hop hact

theorem good_of_none (hr : s.replayed = none) : s.Good k ↔ ∀ n ∈ s.window, n ∈ s.kept k := by
  rw [Good, hr]

theorem step_good_iff (h : s.replayed = none → s.Ok k) (hg : s.Good k) (hs : s.step k op = some s') :
    s'.Good k ↔ s.DropsNothing k op := by
  obtain ⟨hr, hact⟩ := step_eq_some hs
  have hkept := (good_of_none hr).1 hg
  rcases isResume_or op with ⟨r, c, rfl⟩ | hop
  · exact resume_good_iff (h hr) hkept hact
  · exact moves_good_iff (h hr) hkept (step_moves (h hr) hr hop hact)

theorem good_of_step (h : s.replayed = none → s.Ok k) (hs : s.step k op = some s') (hg : s'.Good k) :
    s.Good k := by
  obtain ⟨hr, hact⟩ := step_eq_some hs
  refine (good_of_none hr).2 fun n hn => ?_
  rcases isResume_or op with ⟨r, c, rfl⟩ | hop
  · obtain ⟨last, hl, hle, hw, hr'⟩ := act_resume hact
    rw [Good, hr'] at hg
    have hb := (mem_replay (h hr).stream hl hle hn).1 (hg n (by rw [hw]; exact hn))
    rw [kept, List.append_assoc]
    exact List.mem_append_left _ hb
  · obtain ⟨l₁, dropped, l₂, arrived, due, hk, hk', hw, hr', harr, -⟩ := step_moves (h hr) hr hop hact
    have hmem := (good_of_none hr').1 hg n (by rw [hw]; exact List.mem_append_left _ hn)
    rw [hk'] at hmem
    rcases List.mem_append.1 hmem with hl | ha
    · rw [hk]
      simp only [List.mem_append] at hl ⊢
      tauto
    · have hlt := ((h hr).window n hn).1
      rw [harr n ha] at hlt
      exact absurd hlt (Nat.lt_irrefl _)

section Runs

variable {hubOps : List HubOp} {username : String} {store : ConnectionStore Buffered} {stream : LiveStream k}
  {now : Instant} {ops : List DownOp} {r : List Buffered}

/-- A run that ends with the resumption replays every event of its window if and only if none of its
steps drops one. -/
theorem replays_iff (hrun : Run.exec (step k) (init k hubOps username store stream now) ops = some s)
    (hr : s.replayed = some r) :
    (∀ n ∈ s.window, ∃ m ∈ r, m.event = some n) ↔
      Run.AllSteps (step k) (DropsNothing k) (init k hubOps username store stream now) ops := by
  have hI : ∀ s a s', (s.replayed = none → s.Ok k) → step k s a = some s' → (s'.replayed = none → s'.Ok k) :=
    fun s a s' h hs => step_ok h hs
  have h0 : (init k hubOps username store stream now).replayed = none →
      (init k hubOps username store stream now).Ok k := fun _ => ok_init ..
  have hg0 : (init k hubOps username store stream now).Good k := fun _ h => by cases h
  have hgood : s.Good k ↔ ∀ n ∈ s.window, ∃ m ∈ r, m.event = some n := by rw [Good, hr]
  rw [← hgood, ← Run.allStates_iff_allSteps hI (fun s a s' h hg hs => step_good_iff h hg hs) h0 hg0 hrun]
  exact ⟨Run.allStates_of_last hI (fun s a s' h hs => good_of_step h hs) h0 hrun, fun h => h.last hrun⟩

end Runs

section Example

/-- User `7` on the stream `c`, whose events name it. -/
def exampleIds : SocketIds := ⟨⟨fun _ => none, fun _ => none, fun _ => "", id⟩, 7, "c", 70, 28⟩

def exampleStream : LiveStream exampleIds := ⟨.new "c" 7 1 0, rfl, fun _ h => by cases h⟩

def exampleEvent : WsEnvelope :=
  (WsEnvelope.new .threadUpdated (.obj []) none).withBroadcast ⟨none, none, some 7, none⟩

/-- The actor task marks the stream first, and the forward task still takes one event. -/
theorem replays_iff_last_event :
    ∃ s r, Run.exec (step exampleIds) (init exampleIds [] "u" .empty exampleStream 0)
        [.close, .actorDisconnect, .broadcast exampleEvent, .receive, .queue, .send false, .abort, .loopDisconnect,
          .removeConnection, .resume (some 0) "d"] = some s ∧ s.replayed = some r ∧
      Run.AllSteps (step exampleIds) (DropsNothing exampleIds)
        (init exampleIds [] "u" .empty exampleStream 0)
        [.close, .actorDisconnect, .broadcast exampleEvent, .receive, .queue, .send false, .abort, .loopDisconnect,
          .removeConnection, .resume (some 0) "d"] :=
  ⟨_, _, rfl, rfl, (replays_iff rfl rfl).1 (by decide)⟩

/-- The socket is gone when the event is broadcast: the resumption replays nothing. -/
theorem event_without_socket_lost :
    ∃ s, Run.exec (step exampleIds) (init exampleIds [] "u" .empty exampleStream 0)
        [.close, .actorDisconnect, .abort, .cancel, .loopDisconnect, .removeConnection, .broadcast exampleEvent,
          .resume (some 0) "d"] = some s ∧ s.window = [0] ∧ s.replayed = some [] :=
  ⟨_, rfl, rfl, rfl⟩

end Example

end DownState

end Rustchat
