import Mathlib.Data.List.Chain
import Rustchat.DownTime
import Rustchat.RunConnection

/-!
# Lost events and sequence numbers (`api/v4/websocket.rs`, `realtime/websocket_actor.rs`)

The hub hands an event to the channel of the socket, the forward task takes it from there, draws a sequence number
and hands it to the actor, which writes it to the client. Whatever fails behind the channel shows: a number that was
drawn and not sent leaves a gap, and a send that fails ends the forward task and with it the socket. The channel is
lossy in front of the numbers: a full one drops its oldest entry, and the forward task goes on at the next one.
So a loss is detectable in a run exactly when no full channel drops an event (`LossState.detectable_iff`).

The runs are those of one socket from its registration in the hub, with any other traffic on the hub and on the
connection store. An event is known by the number of its broadcast.
-/

namespace Rustchat

/-- A message for the client, and the event it comes from if that is one of the run. -/
structure Outgoing where
  event : Option Nat
  message : WebSocketMessage
deriving DecidableEq

-- the commands that nothing sends are left out
inductive WsCommand where
  | sendMessage (out : Outgoing)
  | sendRaw (data : Json)
  | close (code : Nat) (reason : String)
deriving DecidableEq

def WsCommand.outgoing : WsCommand → Option Outgoing
  | .sendMessage out => some out
  | _ => none

inductive ForwardTask where
  | starting
  | listening
  | holding (event : Nat) (message : WebSocketMessage)
  | sending (event : Nat) (message : WebSocketMessage)
  | ended
deriving DecidableEq

/-- Where `run_connection` is: in its main loop, about to send a snapshot, or in its cleanup, behind the abort of the
forward task, behind `actor.disconnect` or behind the hub's `remove_connection`. -/
inductive MainLoop where
  | running
  | snapshotting (message : WebSocketMessage)
  | aborted
  | disconnected
  | removed
deriving DecidableEq

def MainLoop.Left : MainLoop → Prop
  | .running | .snapshotting _ => False
  | _ => True

instance : ∀ l : MainLoop, Decidable l.Left
  | .running | .snapshotting _ => .isFalse id
  | .aborted | .disconnected | .removed => .isTrue trivial

/-- `issued` is the number of broadcasts so far and `due` lists those that are events for the user. `channel` holds
what the forward task has not taken yet of what the hub sent, and `skipped` counts what it has missed of it since it
last took something. `received` is what was written to the client. -/
structure LossState where
  hub : WsHub
  streams : StoreState Json
  issued : Nat
  channel : List (Nat × WsEnvelope)
  skipped : Nat
  forward : ForwardTask
  loop : MainLoop
  commands : List WsCommand
  isClosing : Bool
  actorDone : Bool
  received : List Outgoing
  due : List Nat

inductive LossOp where
  | hub (op : HubOp)
  | streams (op : StoreOp Json)
  | broadcast (env : WsEnvelope)
  -- the forward task
  | spawn
  | receive
  | queue
  | send
  | cancel
  -- the main loop, and its cleanup
  | snapshot (data : Json)
  | sendSnapshot
  | reply (data : Json)
  | expire
  | abort
  | disconnect
  | removeConnection
  -- the actor task
  | write
  | stop

namespace LossState

variable (k : SocketIds)

/-- The socket is registered in the hub, and the actor has the hello message and the replayed ones. -/
def init (hubOps : List HubOp) (username : String) (streams : StoreState Json) (greeting : List WebSocketMessage) :
    LossState where
  hub := (WsHub.run hubOps).addConnection k.userId username k.hubConnId
  streams := streams
  issued := 0
  channel := []
  skipped := 0
  forward := .starting
  loop := .running
  commands := greeting.map fun m => .sendMessage ⟨none, m⟩
  isClosing := false
  actorDone := false
  received := []
  due := []

/-- The hub hands the envelope to the socket, and the socket still has a receiver. -/
def Arrives (s : LossState) (env : WsEnvelope) : Prop :=
  WsHub.handedTo (s.hub.broadcastLocal env) k.userId k.hubConnId ≠ [] ∧ s.forward ≠ .ended

def Due (s : LossState) (env : WsEnvelope) : Prop :=
  s.hub.Addressed env.broadcast k.userId ∧ (mapEnvelopeToMm k.codecs env).isSome = true

/-- The channel drops its oldest entry to take the envelope. -/
def Overflows (s : LossState) (env : WsEnvelope) : Prop := s.Arrives k env ∧ k.capacity ≤ s.channel.length

instance (s : LossState) (env : WsEnvelope) : Decidable (s.Arrives k env) :=
  inferInstanceAs (Decidable (_ ∧ _))
instance (s : LossState) (env : WsEnvelope) : Decidable (s.Due k env) := inferInstanceAs (Decidable (_ ∧ _))
instance (s : LossState) (env : WsEnvelope) : Decidable (s.Overflows k env) :=
  inferInstanceAs (Decidable (_ ∧ _))

def broadcast (s : LossState) (env : WsEnvelope) : LossState :=
  { s with
    issued := s.issued + 1
    channel := if s.Arrives k env then Window.push k.capacity s.channel (s.issued, env) else s.channel
    skipped := if s.Overflows k env then s.skipped + 1 else s.skipped
    due := if s.Due k env then s.due ++ [s.issued] else s.due }

/-- The number drawn for the payload, if the stream is stored. -/
def queueMessage (s : LossState) (payload : Json) : Option Int :=
  (s.streams.store.queueMessage k.connectionId payload s.streams.now).1

def streamsAfter (s : LossState) (payload : Json) : StoreState Json :=
  { s.streams with store := (s.streams.store.queueMessage k.connectionId payload s.streams.now).2 }

def disconnectStream (s : LossState) : StoreState Json :=
  { s.streams with store := s.streams.store.disconnectConnection k.connectionId s.streams.now }

/-- `self.cmd_tx.try_send`. -/
def trySend (s : LossState) (command : WsCommand) : Option LossState :=
  if s.actorDone = true ∨ commandBufferCapacity ≤ s.commands.length then none
  else some { s with commands := s.commands ++ [command] }

/-- `WebSocketActor::send` and `send_raw`. -/
def send (s : LossState) (command : WsCommand) : Option LossState :=
  if s.isClosing then none else s.trySend command

def close (s : LossState) (code : Nat) (reason : String) : LossState :=
  { (s.trySend (.close code reason)).getD s with isClosing := true }

/-- The actor task leaves its loop. -/
def stop (s : LossState) : LossState :=
  { s with isClosing := true, actorDone := true, commands := [], streams := s.disconnectStream k }

def write (s : LossState) : Option LossState :=
  match s.commands with
  | [] => none
  | .sendMessage out :: rest => some { s with commands := rest, received := s.received ++ [out] }
  | .sendRaw _ :: rest => some { s with commands := rest }
  | .close _ _ :: _ => some (s.stop k)

def receive (s : LossState) : Option LossState :=
  -- `RecvError::Lagged`
  if s.skipped ≠ 0 then some { s with skipped := 0 }
  else
    match s.channel with
    | [] => none
    | (n, env) :: rest =>
      match mapEnvelopeToMm k.codecs env with
      | some m => some { s with channel := rest, forward := .holding n m }
      | none => some { s with channel := rest }

def sendEvent (s : LossState) (event : Nat) (message : WebSocketMessage) : LossState :=
  match s.send (.sendMessage ⟨some event, message⟩) with
  | some s' => { s' with forward := .listening }
  | none => { s with forward := .ended, channel := [] }

def snapshotMessage (data : Json) : WebSocketMessage :=
  ⟨none, "initial_load", data, ⟨none, encodeMmId k.userId, "", ""⟩⟩

def step (s : LossState) : LossOp → Option LossState
  | .hub op =>
    if op = .removeConnection k.userId k.hubConnId then none else some { s with hub := s.hub.apply op }
  | .streams op => (s.streams.step op).map fun streams => { s with streams }
  | .broadcast env => some (s.broadcast k env)
  | .spawn =>
    if s.forward = .starting ∧ s.loop = .running then some { s with forward := .listening } else none
  | .receive => if s.forward = .listening then s.receive k else none
  | .queue =>
    match s.forward with
    | .holding n m =>
      some { s with
        streams := s.streamsAfter k (replayPayload m)
        forward := .sending n { m with seq := (s.queueMessage k (replayPayload m)).or m.seq } }
    | _ => none
  | .send =>
    match s.forward with
    | .sending n m => some (s.sendEvent n m)
    | _ => none
  -- the task is cancelled at its only await
  | .cancel =>
    if s.loop.Left ∧ s.forward = .listening then some { s with forward := .ended, channel := [] } else none
  | .snapshot data =>
    if s.loop = .running then
      let m := snapshotMessage k data
      some { s with
        streams := s.streamsAfter k (replayPayload m)
        loop := .snapshotting { m with seq := (s.queueMessage k (replayPayload m)).or m.seq } }
    else none
  | .sendSnapshot =>
    match s.loop with
    | .snapshotting m => some { (s.send (.sendMessage ⟨none, m⟩)).getD s with loop := .running }
    | _ => none
  | .reply data => if s.loop = .running then some ((s.send (.sendRaw data)).getD s) else none
  | .expire =>
    if s.loop = .running then
      some { s.close 1008 "Authentication token expired" with loop := .aborted }
    else none
  | .abort => if s.loop = .running then some { s with loop := .aborted } else none
  | .disconnect =>
    if s.loop = .aborted then
      some { s with isClosing := true, streams := s.disconnectStream k, loop := .disconnected }
    else none
  | .removeConnection =>
    if s.loop = .disconnected then
      some { s with hub := s.hub.removeConnection k.userId k.hubConnId, loop := .removed }
    else none
  | .write => if s.actorDone = true then none else s.write k
  | .stop => if s.actorDone = true then none else some (s.stop k)

/-- The server closes the socket. -/
def Closing (s : LossState) : Prop := s.isClosing = true ∨ s.forward = .ended ∨ s.loop.Left

instance (s : LossState) : Decidable s.Closing := inferInstanceAs (Decidable (_ ∨ _ ∨ _))

/-- The messages that were written to the client or wait for it in the actor's queue. -/
def handed (s : LossState) : List Outgoing := s.received ++ s.commands.filterMap WsCommand.outgoing

def numbers (s : LossState) : List Int := s.handed.filterMap fun out => out.message.seq

def Consecutive (s : LossState) : Prop := s.numbers.IsChain fun m n => n = m + 1

instance (s : LossState) : Decidable s.Consecutive := inferInstanceAs (Decidable (List.IsChain _ _))

def inHand (s : LossState) : List Nat :=
  match s.forward with
  | .holding n _ | .sending n _ => [n]
  | _ => []

/-- The events that were received or are under way, oldest first. -/
def kept (s : LossState) : List Nat :=
  s.handed.filterMap Outgoing.event ++ s.inHand ++ s.channel.map Prod.fst

/-- A client that sees consecutive numbers on an open socket has received every event that is due, up to those that
are still under way to it. -/
def Detectable (s : LossState) : Prop := ¬ s.Closing → s.Consecutive → ∀ n ∈ s.due, n ∈ s.kept

/-- No event for the user is dropped from a full channel while all looks well to the client. -/
def DropsNoEvent (s : LossState) : LossOp → Prop
  | .broadcast env =>
    ¬ s.Closing → s.Consecutive → s.Overflows k env → ∀ x ∈ s.channel.head?, mapEnvelopeToMm k.codecs x.2 = none
  | _ => True

variable {k} {s s' : LossState} {op : LossOp} {command : WsCommand}

theorem trySend_eq_some (h : s.trySend command = some s') :
    s' = { s with commands := s.commands ++ [command] } := by
  unfold trySend at h
  split_ifs at h
  exact (Option.some.inj h).symm

theorem send_eq_some (h : s.send command = some s') :
    s' = { s with commands := s.commands ++ [command] } := by
  unfold send at h
  split_ifs at h
  exact trySend_eq_some h

theorem send_getD (s : LossState) (command : WsCommand) :
    ∃ commands, (s.send command).getD s = { s with commands := s.commands ++ commands } ∧
      (commands = [] ∨ commands = [command]) := by
  cases h : s.send command with
  | none => exact ⟨[], by simp, .inl rfl⟩
  | some s' => exact ⟨[command], send_eq_some h, .inr rfl⟩

theorem close_eq (s : LossState) (code : Nat) (reason : String) :
    ∃ commands, s.close code reason = { s with commands := s.commands ++ commands, isClosing := true } ∧
      commands.filterMap WsCommand.outgoing = [] := by
  unfold close
  cases h : s.trySend (.close code reason) with
  | none => exact ⟨[], by simp, rfl⟩
  | some s' => exact ⟨[.close code reason], by rw [trySend_eq_some h]; rfl, rfl⟩

theorem handed_append (s : LossState) (commands : List WsCommand) :
    ({ s with commands := s.commands ++ commands } : LossState).handed =
      s.handed ++ commands.filterMap WsCommand.outgoing := by
  show s.received ++ (s.commands ++ commands).filterMap WsCommand.outgoing = _
  rw [List.filterMap_append, ← List.append_assoc]; rfl

theorem Closing.congr (h : s.Closing) (hf : s.forward ≠ .ended) (hc : s'.isClosing = s.isClosing)
    (hl : s.loop.Left → s'.loop.Left) : s'.Closing := by
  rcases h with h | h | h
  · exact .inl (hc.trans h)
  · exact absurd h hf
  · exact .inr (.inr (hl h))

/-- The invariant of every run: what is under way is in order and older than the next broadcast, an open socket is
registered, and an event in its channel is due if it has a message for the client. -/
structure Ok (k : SocketIds) (s : LossState) : Prop where
  hub : s.hub.Ok
  connected : ¬ s.Closing → s.hub.IsConnected k.userId k.hubConnId
  sorted : s.kept.Pairwise (· < ·)
  fresh : ∀ n ∈ s.kept, n < s.issued
  due : ∀ n ∈ s.due, n < s.issued
  mapped : ∀ x ∈ s.channel, x.1 ∈ s.due ↔ (mapEnvelopeToMm k.codecs x.2).isSome = true

/-- The events move on to the client in order. They are lost to a socket that closes only. -/
structure Moves (k : SocketIds) (s s' : LossState) : Prop where
  issued : s'.issued = s.issued
  due : s'.due = s.due
  hub : s.hub.Ok → s'.hub.Ok
  kept : s'.kept.Sublist s.kept
  channel : s'.channel ⊆ s.channel
  closing : s.Closing → s'.Closing
  connected : ¬ s'.Closing → s.hub.IsConnected k.userId k.hubConnId → s'.hub.IsConnected k.userId k.hubConnId
  numbers : ¬ s'.Closing → s.numbers <+: s'.numbers
  keeps : ¬ s'.Closing → ∀ n ∈ s.due, n ∈ s.kept → n ∈ s'.kept

theorem Moves.of_handed (extra : List Outgoing) (hi : s'.issued = s.issued) (hd : s'.due = s.due) (hh : s'.hub = s.hub)
    (hch : s'.channel = s.channel) (hcl : s.Closing → s'.Closing) (hhanded : s'.handed = s.handed ++ extra)
    (hhand : extra.filterMap Outgoing.event ++ s'.inHand = s.inHand) : s.Moves k s' := by
  have hkept : s'.kept = s.kept := by
    rw [LossState.kept, LossState.kept, hhanded, hch, List.filterMap_append,
      List.append_assoc _ _ s'.inHand, hhand]
  refine ⟨hi, hd, ?_, ?_, ?_, hcl, ?_, ?_, ?_⟩
  · rw [hh]; exact id
  · rw [hkept]
  · rw [hch]; exact List.Subset.refl _
  · rw [hh]; exact fun _ => id
  · intro _
    rw [LossState.numbers, LossState.numbers, hhanded, List.filterMap_append]
    exact List.prefix_append _ _
  · rw [hkept]; exact fun _ _ _ => id

theorem Moves.of_closing (hi : s'.issued = s.issued) (hd : s'.due = s.due) (hh : s.hub.Ok → s'.hub.Ok)
    (hk : s'.kept.Sublist s.kept) (hch : s'.channel ⊆ s.channel) (hcl : s'.Closing) : s.Moves k s' :=
  ⟨hi, hd, hh, hk, hch, fun _ => hcl, fun h => absurd hcl h, fun h => absurd hcl h, fun h => absurd hcl h⟩

theorem ended_moves (s : LossState) : s.Moves k { s with forward := .ended, channel := [] } := by
  refine .of_closing rfl rfl id ?_ (List.nil_subset _) (.inr (.inl rfl))
  show (s.handed.filterMap Outgoing.event ++ [] ++ []).Sublist s.kept
  rw [List.append_nil, List.append_nil, kept, List.append_assoc]
  exact List.sublist_append_left _ _

theorem stop_moves (s : LossState) : s.Moves k (s.stop k) := by
  refine .of_closing rfl rfl id ?_ (List.Subset.refl _) (.inl rfl)
  have hhanded : (s.stop k).handed.Sublist s.handed := by
    show (s.received ++ []).Sublist s.handed
    rw [List.append_nil]
    exact List.sublist_append_left _ _
  exact ((hhanded.filterMap _).append_right s.inHand).append_right _

theorem write_moves (hs : s.write k = some s') : s.Moves k s' := by
  unfold write at hs
  split at hs
  · cases hs
  · next out rest hc =>
    obtain rfl := Option.some.inj hs
    refine .of_handed [] rfl rfl rfl rfl id ?_ rfl
    rw [handed, handed, hc, List.append_nil, List.append_assoc]; rfl
  · next rest hc =>
    obtain rfl := Option.some.inj hs
    refine .of_handed [] rfl rfl rfl rfl id ?_ rfl
    rw [handed, handed, hc, List.append_nil]; rfl
  · obtain rfl := Option.some.inj hs
    exact stop_moves s

theorem receive_moves (h : s.Ok k) (hf : s.forward = .listening) (hs : s.receive k = some s') :
    s.Moves k s' := by
  have hhand : s.inHand = [] := by rw [inHand, hf]
  unfold receive at hs
  split at hs
  · obtain rfl := Option.some.inj hs
    exact .of_handed [] rfl rfl rfl rfl id (List.append_nil _).symm rfl
  · split at hs
    · cases hs
    · next n env rest hch =>
      have hkept : s.kept = s.handed.filterMap Outgoing.event ++ n :: rest.map Prod.fst := by
        rw [kept, hhand, hch, List.append_nil]; rfl
      have hsub : rest ⊆ s.channel := by rw [hch]; exact List.subset_cons_self _ _
      split at hs
      · next m hm =>
        obtain rfl := Option.some.inj hs
        have hkept' : s.kept = s.handed.filterMap Outgoing.event ++ [n] ++ rest.map Prod.fst := by
          rw [hkept, List.append_assoc]; rfl
        refine ⟨rfl, rfl, id, ?_, hsub, ?_, fun _ => id, fun _ => List.prefix_refl _, ?_⟩
        · rw [hkept']; exact List.Sublist.refl _
        · exact fun hc => hc.congr (by simp [hf]) rfl id
        · rw [hkept']; exact fun _ _ _ => id
      · next hm =>
        obtain rfl := Option.some.inj hs
        have hkept' : ({ s with channel := rest } : LossState).kept =
            s.handed.filterMap Outgoing.event ++ rest.map Prod.fst := by
          show s.handed.filterMap Outgoing.event ++ s.inHand ++ rest.map Prod.fst = _
          rw [hhand, List.append_nil]
        refine ⟨rfl, rfl, id, ?_, hsub, id, fun _ => id, fun _ => List.prefix_refl _, fun _ x hx hk => ?_⟩
        · rw [hkept, hkept']
          exact (List.sublist_cons_self _ _).append_left _
        · -- an event that is due has a message
          have hne : x ≠ n := by
            rintro rfl
            have hsome := (h.mapped (x, env) (by rw [hch]; exact List.mem_cons_self)).1 hx
            rw [hm] at hsome; cases hsome
          rw [hkept] at hk
          rw [hkept']
          simpa [hne] using hk

theorem sendEvent_moves {n : Nat} {m : WebSocketMessage} (hf : s.forward = .sending n m) :
    s.Moves k (s.sendEvent n m) := by
  have hhand : s.inHand = [n] := by rw [inHand, hf]
  unfold sendEvent
  split
  · next s' hs' =>
    rw [send_eq_some hs']
    refine .of_handed [⟨some n, m⟩] rfl rfl rfl rfl ?_ (s.handed_append [_]) ?_
    · exact fun hc => hc.congr (by simp [hf]) rfl id
    · rw [hhand]; rfl
  · exact s.ended_moves

theorem Moves.of_commands {commands : List WsCommand} {loop : MainLoop}
    (he : (commands.filterMap WsCommand.outgoing).filterMap Outgoing.event = [])
    (hl : s.loop.Left → loop.Left) :
    s.Moves k { s with commands := s.commands ++ commands, loop } := by
  refine .of_handed (commands.filterMap WsCommand.outgoing) rfl rfl rfl rfl ?_ (s.handed_append commands) ?_
  · rintro (hc | hc | hc)
    · exact .inl hc
    · exact .inr (.inl hc)
    · exact .inr (.inr (hl hc))
  · rw [he]; rfl

theorem expire_moves (s : LossState) (code : Nat) (reason : String) :
    s.Moves k { s.close code reason with loop := .aborted } := by
  obtain ⟨commands, hclose, hout⟩ := s.close_eq code reason
  rw [hclose]
  refine .of_closing rfl rfl id ?_ (List.Subset.refl _) (.inl rfl)
  show ((({ s with commands := s.commands ++ commands } : LossState).handed.filterMap Outgoing.event ++ s.inHand) ++
    s.channel.map Prod.fst).Sublist s.kept
  rw [handed_append, hout, List.append_nil]
  exact List.Sublist.refl _

theorem step_moves (h : s.Ok k) (hop : ∀ env, op ≠ .broadcast env) (hs : s.step k op = some s') :
    s.Moves k s' := by
  cases op with
  | hub o =>
    obtain ⟨hne, hs⟩ := Option.ite_none_left_eq_some.1 hs
    obtain rfl := Option.some.inj hs
    exact ⟨rfl, rfl, fun h => h.apply o, List.Sublist.refl _, List.Subset.refl _, id, fun _ hc => hc.apply hne,
      fun _ => List.prefix_refl _, fun _ _ _ => id⟩
  | streams o =>
    obtain ⟨streams, -, rfl⟩ := Option.map_eq_some_iff.1 hs
    exact .of_handed [] rfl rfl rfl rfl id (List.append_nil _).symm rfl
  | broadcast env => exact absurd rfl (hop env)
  | spawn =>
    obtain ⟨hf, hs⟩ := Option.ite_none_right_eq_some.1 hs
    obtain rfl := Option.some.inj hs
    refine .of_handed [] rfl rfl rfl rfl ?_ (List.append_nil _).symm ?_
    · exact fun hc => hc.congr (by simp [hf.1]) rfl id
    · rw [inHand, inHand, hf.1]; rfl
  | receive =>
    obtain ⟨hf, hs⟩ := Option.ite_none_right_eq_some.1 hs
    exact receive_moves h hf hs
  | queue =>
    simp only [step] at hs
    split at hs
    · next n m hf =>
      obtain rfl := Option.some.inj hs
      refine .of_handed [] rfl rfl rfl rfl ?_ (List.append_nil _).symm ?_
      · exact fun hc => hc.congr (by simp [hf]) rfl id
      · rw [inHand, inHand, hf]; rfl
    · cases hs
  | send =>
    simp only [step] at hs
    split at hs
    · next n m hf =>
      obtain rfl := Option.some.inj hs
      exact sendEvent_moves hf
    · cases hs
  | cancel =>
    obtain ⟨-, hs⟩ := Option.ite_none_right_eq_some.1 hs
    obtain rfl := Option.some.inj hs
    exact s.ended_moves
  | snapshot data =>
    obtain ⟨hl, hs⟩ := Option.ite_none_right_eq_some.1 hs
    obtain rfl := Option.some.inj hs
    refine .of_handed [] rfl rfl rfl rfl ?_ (List.append_nil _).symm rfl
    rintro (hc | hc | hc)
    · exact .inl hc
    · exact .inr (.inl hc)
    · rw [hl] at hc; cases hc
  | sendSnapshot =>
    simp only [step] at hs
    split at hs
    · next m hl =>
      obtain rfl := Option.some.inj hs
      have hleft : s.loop.Left → MainLoop.running.Left := by rw [hl]; exact id
      obtain ⟨commands, h, rfl | rfl⟩ := s.send_getD (.sendMessage ⟨none, m⟩)
      · rw [h]; exact .of_commands rfl hleft
      · rw [h]; exact .of_commands rfl hleft
    · cases hs
  | reply data =>
    obtain ⟨-, hs⟩ := Option.ite_none_right_eq_some.1 hs
    obtain rfl := Option.some.inj hs
    obtain ⟨commands, h, rfl | rfl⟩ := s.send_getD (.sendRaw data)
    · rw [h]; exact .of_commands rfl id
    · rw [h]; exact .of_commands rfl id
  | expire =>
    obtain ⟨-, hs⟩ := Option.ite_none_right_eq_some.1 hs
    obtain rfl := Option.some.inj hs
    exact s.expire_moves _ _
  | abort =>
    obtain ⟨-, hs⟩ := Option.ite_none_right_eq_some.1 hs
    obtain rfl := Option.some.inj hs
    exact .of_closing rfl rfl id (List.Sublist.refl _) (List.Subset.refl _) (.inr (.inr trivial))
  | disconnect =>
    obtain ⟨-, hs⟩ := Option.ite_none_right_eq_some.1 hs
    obtain rfl := Option.some.inj hs
    exact .of_closing rfl rfl id (List.Sublist.refl _) (List.Subset.refl _) (.inl rfl)
  | removeConnection =>
    obtain ⟨-, hs⟩ := Option.ite_none_right_eq_some.1 hs
    obtain rfl := Option.some.inj hs
    exact .of_closing rfl rfl (fun h => h.apply (.removeConnection k.userId k.hubConnId)) (List.Sublist.refl _)
      (List.Subset.refl _) (.inr (.inr trivial))
  | write =>
    obtain ⟨-, hs⟩ := Option.ite_none_left_eq_some.1 hs
    exact write_moves hs
  | stop =>
    obtain ⟨-, hs⟩ := Option.ite_none_left_eq_some.1 hs
    obtain rfl := Option.some.inj hs
    exact s.stop_moves

variable {env : WsEnvelope}

/-- What a broadcast drops from the channel, and what it puts into it. -/
def dropped (k : SocketIds) (s : LossState) (env : WsEnvelope) : List (Nat × WsEnvelope) :=
  if s.Overflows k env then s.channel.head?.toList else []

def arrived (k : SocketIds) (s : LossState) (env : WsEnvelope) : List Nat :=
  if s.Arrives k env then [s.issued] else []

theorem broadcast_kept (k : SocketIds) (s : LossState) (env : WsEnvelope) :
    ∃ l₁ l₂, s.kept = l₁ ++ (s.dropped k env).map Prod.fst ++ l₂ ∧
      (s.broadcast k env).kept = l₁ ++ l₂ ++ s.arrived k env := by
  obtain ⟨rest, h, h'⟩ : ∃ rest, s.channel = s.dropped k env ++ rest ∧
      (s.broadcast k env).channel = rest ++ (s.arrived k env).map fun n => (n, env) := by
    show ∃ rest, _ ∧ (if s.Arrives k env then Window.push k.capacity s.channel (s.issued, env) else s.channel) = _
    unfold dropped arrived
    by_cases ha : s.Arrives k env
    · rw [if_pos ha, if_pos ha, Window.push]
      by_cases hfull : k.capacity ≤ s.channel.length
      · rw [if_pos hfull, if_pos ⟨ha, hfull⟩]
        refine ⟨s.channel.tail, ?_, rfl⟩
        cases s.channel <;> rfl
      · rw [if_neg hfull, if_neg fun h => hfull h.2]
        exact ⟨s.channel, rfl, rfl⟩
    · rw [if_neg ha, if_neg ha, if_neg fun h => ha h.1]
      exact ⟨s.channel, rfl, (List.append_nil _).symm⟩
  have harr : ((s.arrived k env).map fun n => (n, env)).map Prod.fst = s.arrived k env := by
    rw [List.map_map]
    exact List.map_id' _
  refine ⟨s.handed.filterMap Outgoing.event ++ s.inHand, rest.map Prod.fst, ?_, ?_⟩
  · rw [kept, h, List.map_append, ← List.append_assoc]
  · show s.handed.filterMap Outgoing.event ++ s.inHand ++ (s.broadcast k env).channel.map Prod.fst = _
    rw [h', List.map_append, harr, ← List.append_assoc]

theorem mem_arrived {n : Nat} : n ∈ s.arrived k env ↔ s.Arrives k env ∧ n = s.issued := by
  unfold arrived
  split
  · next h => simp [h]
  · next h => simp [h]

theorem mem_due_broadcast {n : Nat} :
    n ∈ (s.broadcast k env).due ↔ n ∈ s.due ∨ s.Due k env ∧ n = s.issued := by
  show n ∈ (if s.Due k env then s.due ++ [s.issued] else s.due) ↔ _
  split
  · next h => simp [h]
  · next h => simp [h]

theorem mem_channel_broadcast {x : Nat × WsEnvelope} (h : x ∈ (s.broadcast k env).channel) :
    x ∈ s.channel ∨ s.Arrives k env ∧ x = (s.issued, env) := by
  have hx : x ∈ (if s.Arrives k env then Window.push k.capacity s.channel (s.issued, env) else s.channel) := h
  split at hx
  · next ha => exact (Window.mem_push hx).imp_right fun h => ⟨ha, h⟩
  · exact .inl hx

theorem addressed_of_arrives (h : s.hub.Ok) (ha : s.Arrives k env) :
    s.hub.Addressed env.broadcast k.userId := by
  by_contra hno
  exact ha.1 ((WsHub.handedTo_broadcastLocal h env k.userId k.hubConnId).2 fun hyes => hno hyes.2)

theorem arrives_of_due (h : s.Ok k) (ho : ¬ s.Closing) (hd : s.Due k env) : s.Arrives k env := by
  refine ⟨?_, fun hf => ho (.inr (.inl hf))⟩
  rw [(WsHub.handedTo_broadcastLocal h.hub env k.userId k.hubConnId).1 ⟨h.connected ho, hd.1⟩]
  exact List.cons_ne_nil _ _

/-! ### Invariants -/

theorem Ok.issued_notMem (h : s.Ok k) : s.issued ∉ s.due := fun hn => Nat.lt_irrefl _ (h.due _ hn)

theorem Ok.broadcast (h : s.Ok k) (env : WsEnvelope) : (s.broadcast k env).Ok k := by
  obtain ⟨l₁, l₂, hk, hk'⟩ := s.broadcast_kept k env
  have hsub : (l₁ ++ l₂).Sublist s.kept := by
    rw [hk]; exact (List.sublist_append_left l₁ _).append_right l₂
  refine ⟨h.hub, h.connected, ?_, fun n hn => ?_, fun n hn => ?_, fun x hx => ?_⟩
  · rw [hk', List.pairwise_append]
    refine ⟨h.sorted.sublist hsub, ?_, fun a ha b hb => ?_⟩
    · unfold arrived
      split
      · exact List.pairwise_singleton _ _
      · exact .nil
    · rw [(mem_arrived.1 hb).2]
      exact h.fresh a (hsub.subset ha)
  · show n < s.issued + 1
    rw [hk'] at hn
    rcases List.mem_append.1 hn with hn | hn
    · have hlt := h.fresh n (hsub.subset hn)
      omega
    · rw [(mem_arrived.1 hn).2]
      omega
  · show n < s.issued + 1
    rcases mem_due_broadcast.1 hn with hn | ⟨-, rfl⟩
    · have hlt := h.due n hn
      omega
    · omega
  · rw [mem_due_broadcast]
    rcases mem_channel_broadcast hx with hx | ⟨ha, rfl⟩
    · have hlt := h.fresh x.1 (List.mem_append_right _ (List.mem_map_of_mem hx))
      rw [← h.mapped x hx]
      exact ⟨fun hn => hn.resolve_right fun hn => Nat.ne_of_lt hlt hn.2, .inl⟩
    · have haddr := addressed_of_arrives h.hub ha
      constructor
      · rintro (hn | hn)
        · exact absurd hn h.issued_notMem
        · exact hn.1.2
      · exact fun hm => .inr ⟨⟨haddr, hm⟩, rfl⟩

theorem Ok.moves (h : s.Ok k) (hm : s.Moves k s') : s'.Ok k := by
  refine ⟨hm.hub h.hub, fun ho => ?_, h.sorted.sublist hm.kept, ?_, ?_, ?_⟩
  · exact hm.connected ho (h.connected fun hc => ho (hm.closing hc))
  · rw [hm.issued]
    exact fun n hn => h.fresh n (hm.kept.subset hn)
  · rw [hm.issued, hm.due]; exact h.due
  · rw [hm.due]
    exact fun x hx => h.mapped x (hm.channel hx)

theorem isBroadcast_or (op : LossOp) : (∃ env, op = .broadcast env) ∨ ∀ env, op ≠ .broadcast env := by
  by_cases h : ∃ env, op = .broadcast env
  · exact .inl h
  · exact .inr fun env he => h ⟨env, he⟩

theorem Ok.step (h : s.Ok k) (hs : s.step k op = some s') : s'.Ok k := by
  rcases isBroadcast_or op with ⟨env, rfl⟩ | hop
  · obtain rfl := Option.some.inj hs
    exact h.broadcast env
  · exact h.moves (step_moves h hop hs)

theorem ok_init (hubOps : List HubOp) (username : String) (streams : StoreState Json)
    (greeting : List WebSocketMessage) : (init k hubOps username streams greeting).Ok k := by
  have hhanded : (init k hubOps username streams greeting).handed = greeting.map fun m => ⟨none, m⟩ := by
    show [] ++ (greeting.map fun m => WsCommand.sendMessage ⟨none, m⟩).filterMap WsCommand.outgoing = _
    rw [List.nil_append, List.filterMap_map, ← List.filterMap_eq_map]; rfl
  have hkept : (init k hubOps username streams greeting).kept = [] := by
    rw [kept, hhanded, List.filterMap_map]
    have hnone : greeting.filterMap (Outgoing.event ∘ fun m => ⟨none, m⟩) = [] :=
      List.filterMap_eq_nil_iff.2 fun _ _ => rfl
    rw [hnone]; rfl
  refine ⟨(WsHub.ok_run hubOps).apply (.addConnection k.userId username k.hubConnId), fun _ => ?_, ?_, ?_,
    ?_, ?_⟩
  · exact WsHub.isConnected_addConnection.2 (.inl ⟨rfl, rfl⟩)
  · rw [hkept]; exact .nil
  · rw [hkept]; exact fun _ h => absurd h List.not_mem_nil
  · exact fun _ h => absurd h List.not_mem_nil
  · exact fun _ h => absurd h List.not_mem_nil

/-! ### Loss -/

theorem broadcast_detectable_iff (h : s.Ok k) (hd : s.Detectable) :
    (s.broadcast k env).Detectable ↔ s.DropsNoEvent k (.broadcast env) := by
  refine imp_congr_right fun ho => imp_congr_right fun hc => ?_
  obtain ⟨l₁, l₂, hk, hk'⟩ := s.broadcast_kept k env
  have hnodup : (l₁ ++ (s.dropped k env).map Prod.fst ++ l₂).Nodup := by
    rw [← hk]; exact h.sorted.imp Nat.ne_of_lt
  have hcov := Window.covers_iff (W := s.due) hnodup (by rw [← hk]; exact hd ho hc)
  calc (∀ n ∈ (s.broadcast k env).due, n ∈ (s.broadcast k env).kept)
      ↔ ∀ n ∈ s.due, n ∈ l₁ ++ l₂ := by
        rw [hk']
        constructor
        · intro hall n hn
          have hmem := hall n (mem_due_broadcast.2 (.inl hn))
          refine (List.mem_append.1 hmem).resolve_right fun harr => ?_
          rw [(mem_arrived.1 harr).2] at hn
          exact h.issued_notMem hn
        · intro hall n hn
          rcases mem_due_broadcast.1 hn with hn | ⟨hdue, rfl⟩
          · exact List.mem_append_left _ (hall n hn)
          · exact List.mem_append_right _ (mem_arrived.2 ⟨arrives_of_due h ho hdue, rfl⟩)
    _ ↔ ∀ n ∈ (s.dropped k env).map Prod.fst, n ∉ s.due := hcov
    _ ↔ (s.Overflows k env → ∀ x ∈ s.channel.head?, mapEnvelopeToMm k.codecs x.2 = none) := by
        have hmapped : ∀ x ∈ s.channel, x.1 ∉ s.due ↔ mapEnvelopeToMm k.codecs x.2 = none := by
          intro x hx
          rw [h.mapped x hx, Option.not_isSome_iff_eq_none]
        unfold dropped
        split
        · next hfull =>
          simp only [hfull, true_imp_iff, List.forall_mem_map, Option.mem_toList, Option.mem_def]
          exact forall₂_congr fun x hx => hmapped x (List.mem_of_head? hx)
        · next hfull => simp [hfull]

theorem dropsNoEvent_of_ne (hop : ∀ env, op ≠ .broadcast env) : s.DropsNoEvent k op := by
  cases op with
  | broadcast env => exact absurd rfl (hop env)
  | _ => trivial

theorem step_detectable_iff (h : s.Ok k) (hd : s.Detectable) (hs : s.step k op = some s') :
    s'.Detectable ↔ s.DropsNoEvent k op := by
  rcases isBroadcast_or op with ⟨env, rfl⟩ | hop
  · obtain rfl := Option.some.inj hs
    exact broadcast_detectable_iff h hd
  · have hm := step_moves h hop hs
    refine iff_of_true (fun ho hc n hn => ?_) (dropsNoEvent_of_ne hop)
    have hc' : s.Consecutive := by
      obtain ⟨rest, hrest⟩ := hm.numbers ho
      rw [Consecutive, ← hrest] at hc
      exact hc.left_of_append
    rw [hm.due] at hn
    exact hm.keeps ho n hn (hd (fun hcl => ho (hm.closing hcl)) hc' n hn)

theorem received_of_detectable (hd : s.Detectable) (ho : ¬ s.Closing) (hc : s.Consecutive) (hch : s.channel = [])
    (hf : s.forward = .listening) (hq : s.commands = []) :
    ∀ n ∈ s.due, ∃ out ∈ s.received, out.event = some n := by
  intro n hn
  have hkept : s.kept = s.received.filterMap Outgoing.event := by
    rw [kept, handed, inHand, hch, hf, hq]; simp
  have hmem := hd ho hc n hn
  rw [hkept] at hmem
  exact List.mem_filterMap.1 hmem

section Runs

variable {hubOps : List HubOp} {username : String} {streams : StoreState Json} {greeting : List WebSocketMessage}
  {ops : List LossOp}

/-- In every state of a run a client that sees consecutive numbers on an open socket has what is due to it, if and
only if no step of the run drops an event from a full channel. -/
theorem detectable_iff (hrun : Run.exec (step k) (init k hubOps username streams greeting) ops = some s) :
    Run.AllStates (step k) Detectable (init k hubOps username streams greeting) ops ↔
      Run.AllSteps (step k) (DropsNoEvent k) (init k hubOps username streams greeting) ops := by
  refine Run.allStates_iff_allSteps (fun s op s' h hs => h.step hs) ?_ (ok_init ..) ?_ hrun
  · exact fun s op s' h hd hs => step_detectable_iff h hd hs
  · exact fun _ _ n hn => absurd hn List.not_mem_nil

end Runs

section Example

open DownState (exampleIds exampleEvent)

/-- The store after user `7` opened the stream `c`. -/
def exampleStreams : StoreState Json := (StoreState.init.step (.resumeOrCreate none 7 none "c")).getD .init

theorem detectable_iff_one_event :
    Run.AllStates (step exampleIds) Detectable (init exampleIds [] "u" exampleStreams [])
      [.broadcast exampleEvent, .spawn, .receive, .queue, .send, .write] := by
  refine (detectable_iff rfl).2 (Run.allSteps_cons.2 ⟨fun _ _ h => absurd h.2 (by decide), fun s' _ => ?_⟩)
  refine fun pre op suf hp t _ => dropsNoEvent_of_ne ?_
  rintro env rfl
  have hmem : LossOp.broadcast env ∈ [LossOp.spawn, .receive, .queue, .send, .write] := by rw [hp]; simp
  simp at hmem

def exampleHello : WebSocketMessage :=
  ⟨some 0, "hello", .obj [("connection_id", .str "c"), ("protocol_version", .str "1.0")], ⟨none, "", "", ""⟩⟩

/-- The forward task starts when the channel has overflowed, and then forwards all that is left of it. -/
def overflowRun : List LossOp :=
  List.replicate 129 (.broadcast exampleEvent) ++ [.write, .spawn, .receive] ++
    (List.replicate 128 [.receive, .queue, .send, .write]).flatten

/-- The first event is lost, the others come with the numbers behind that of the hello message, and the socket
stays open. -/
theorem overflow_leaves_no_gap :
    ∃ s ∈ Run.exec (step exampleIds) (init exampleIds [] "u" exampleStreams [exampleHello]) overflowRun,
      ¬ s.Closing ∧ s.Consecutive ∧ s.channel = [] ∧ s.forward = .listening ∧ s.commands = [] ∧ 0 ∈ s.due ∧
        s.received.length = 129 ∧ ∀ out ∈ s.received, out.event ≠ some 0 := by
  decide +kernel

end Example

end LossState

end Rustchat
