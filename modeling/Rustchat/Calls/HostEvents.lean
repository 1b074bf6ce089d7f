import Rustchat.Calls.Handlers
import Rustchat.Hub
import Rustchat.Posts

/-!
# Events of the host of a call (`calls_plugin/mod.rs`)

When the host mutes a participant, removes one or lowers a hand, the handler signals the participant with an event and
tells the channel with others. `broadcast_call_event` takes the user whom it leaves out, and the signals are given the
participant. So no connection of the participant receives the signal, whatever else is broadcast (`delivered_iff`).
The hand-over of the call after a removal, with its own events, is left out.
-/

namespace Rustchat.Calls

namespace HostEvents

/-- `entry(key).or_insert_with(..)` for an object -/
def orInsert (key value : String) : Json → Json
  | .obj fields => .obj (if (fields.lookup key).isSome then fields else fields ++ [(key, .str value)])
  | v => v

def broadcastCallEvent (eventName : String) (channelId : Uuid) (data : Json) (excludeUserId : Option Uuid) : WsEnvelope where
  msgType := "event"
  event := eventName
  seq := none
  channelId := some channelId
  data := orInsert "channel_id_raw" channelId.hyphenated
    (orInsert "channel_id" (encodeMmId channelId) (orInsert "channelID" (encodeMmId channelId) data))
  broadcast := some ⟨some channelId, none, none, excludeUserId⟩

/-- A request of the host: the channel in the path, as text and resolved, and the session in the body. -/
structure HostRequest where
  path : String
  channel : Uuid
  sessionId : String

section Handlers

variable (env : Env) (req : HostRequest)

def target (call : Option CallState) (forbidden : String) : Except AppError (CallState × Uuid) := do
  let targetSessionId ← okOr (parseMmOrUuid env.parseStr req.sessionId) (.badRequest "Invalid session_id")
  let call ← okOr call (.notFound "No active call in this channel")
  if canManageCall env call then
    let targetUserId ← targetOf env call targetSessionId
    return (call, targetUserId)
  else .error (.forbidden forbidden)

/-- What `host_mute` broadcasts. -/
def hostMute (call : Option CallState) : Except AppError (List WsEnvelope) := do
  let (_, targetUserId) ← target env req call "Only the host can mute other participants"
  return [
    broadcastCallEvent "custom_com.mattermost.calls_host_mute" req.channel
      (.obj [("channel_id", .str req.path), ("session_id", .str req.sessionId)]) (some targetUserId),
    broadcastCallEvent "custom_com.mattermost.calls_user_muted" req.channel
      (.obj [("channel_id", .str req.path), ("user_id", .str (encodeMmId targetUserId)), ("session_id", .str req.sessionId),
        ("muted", .bool true)]) none]

/-- What `host_remove_user` broadcasts, up to the hand-over of the call. -/
def hostRemoveUser (call : Option CallState) : Except AppError (List WsEnvelope) := do
  let (_, targetUserId) ← target env req call "Only the host can remove participants"
  if targetUserId = env.userId then
    .error (.badRequest "Host cannot remove themselves with this endpoint; use leave_call instead")
  else
    return [
      broadcastCallEvent "custom_com.mattermost.calls_host_removed" req.channel
        (.obj [("channel_id", .str req.path), ("session_id", .str req.sessionId)]) (some targetUserId),
      broadcastCallEvent "custom_com.mattermost.calls_user_left" req.channel
        (.obj [("channel_id", .str req.path), ("user_id", .str (encodeMmId targetUserId)),
          ("session_id", .str req.sessionId)]) none]

/-- What `host_lower_hand` broadcasts. -/
def hostLowerHand (call : Option CallState) : Except AppError (List WsEnvelope) := do
  let (call, targetUserId) ← target env req call "Only the host can lower hands"
  let payload : Json := .obj [("channel_id", .str req.path), ("user_id", .str (encodeMmId targetUserId)),
    ("raised_hand", .num 0), ("session_id", .str req.sessionId)]
  return [
    broadcastCallEvent "custom_com.mattermost.calls_host_lower_hand" req.channel
      (.obj [("channel_id", .str req.path), ("session_id", .str req.sessionId), ("call_id", .str (encodeMmId call.callId)),
        ("host_id", .str (encodeMmId env.userId))]) (some targetUserId),
    broadcastCallEvent "custom_com.mattermost.calls_user_unraise_hand" req.channel payload none,
    broadcastCallEvent "custom_com.mattermost.calls_user_lower_hand" req.channel payload none]

end Handlers

inductive HostAction where
  | mute
  | remove
  | lowerHand

namespace HostAction

def handle (env : Env) (req : HostRequest) (call : Option CallState) : HostAction → Except AppError (List WsEnvelope)
  | mute => hostMute env req call
  | remove => hostRemoveUser env req call
  | lowerHand => hostLowerHand env req call

def event : HostAction → String
  | mute => "custom_com.mattermost.calls_host_mute"
  | remove => "custom_com.mattermost.calls_host_removed"
  | lowerHand => "custom_com.mattermost.calls_host_lower_hand"

end HostAction

/-- The `k`th broadcast of a request meets the hub `hubs k`. The event goes to all connections of the user that are
live in all of them. -/
def Delivered (hubs : ℕ → WsHub) (envs : List WsEnvelope) (event : String) (userId : Uuid) : Prop :=
  ∀ c, (∀ k, (hubs k).IsConnected userId c) →
    ∃ k envelope, envs[k]? = some envelope ∧ envelope.event = event ∧
      ⟨userId, c, envelope.serialize⟩ ∈ (hubs k).broadcastLocal envelope

/-! ### Who is left out -/

section Targets

variable {env : Env} {req : HostRequest} {call : CallState} {envs : List WsEnvelope} {userId session : Uuid}
  {hub : WsHub} {e : WsEnvelope}

theorem target_eq_ok {forbidden : String} {x : CallState × Uuid} (hparse : parseMmOrUuid env.parseStr req.sessionId = some session)
    (htarget : targetOf env call session = .ok userId) (h : target env req (some call) forbidden = .ok x) :
    x = (call, userId) := by
  unfold target at h
  rw [hparse] at h
  change (if canManageCall env call then _ else _) = _ at h
  split at h
  · rw [htarget] at h
    exact (Except.ok.inj h).symm
  · cases h

theorem excluded_of_handle {action : HostAction} (hparse : parseMmOrUuid env.parseStr req.sessionId = some session)
    (htarget : targetOf env call session = .ok userId) (h : action.handle env req (some call) = .ok envs)
    (he : e ∈ envs) (hevent : e.event = action.event) :
    e.broadcast = some ⟨some req.channel, none, none, some userId⟩ := by
  cases action with
  | mute =>
    change (target env req (some call) _).bind _ = _ at h
    obtain ⟨x, hx, h⟩ := bind_eq_ok.1 h
    obtain rfl := target_eq_ok hparse htarget hx
    obtain rfl := Except.ok.inj h
    have hmuted : "custom_com.mattermost.calls_user_muted" ≠ HostAction.mute.event := by decide
    rcases List.mem_pair.1 he with rfl | rfl
    · rfl
    · exact absurd hevent hmuted
  | remove =>
    change (target env req (some call) _).bind _ = _ at h
    obtain ⟨x, hx, h⟩ := bind_eq_ok.1 h
    obtain rfl := target_eq_ok hparse htarget hx
    change (if userId = env.userId then _ else _) = _ at h
    split at h
    · cases h
    · obtain rfl := Except.ok.inj h
      have hleft : "custom_com.mattermost.calls_user_left" ≠ HostAction.remove.event := by decide
      rcases List.mem_pair.1 he with rfl | rfl
      · rfl
      · exact absurd hevent hleft
  | lowerHand =>
    change (target env req (some call) _).bind _ = _ at h
    obtain ⟨x, hx, h⟩ := bind_eq_ok.1 h
    obtain rfl := target_eq_ok hparse htarget hx
    obtain rfl := Except.ok.inj h
    have hunraise : "custom_com.mattermost.calls_user_unraise_hand" ≠ HostAction.lowerHand.event := by decide
    have hlower : "custom_com.mattermost.calls_user_lower_hand" ≠ HostAction.lowerHand.event := by decide
    rcases List.mem_cons.1 he with rfl | he
    · rfl
    · rcases List.mem_pair.1 he with rfl | rfl
      · exact absurd hevent hunraise
      · exact absurd hevent hlower

theorem not_mem_broadcastLocal {c : Uuid} {message : String}
    (h : e.broadcast = some ⟨some req.channel, none, none, some userId⟩) :
    ⟨userId, c, message⟩ ∉ hub.broadcastLocal e := by
  intro hmem
  unfold WsHub.broadcastLocal at hmem
  rw [h] at hmem
  obtain ⟨u, -, hsend⟩ := List.mem_flatMap.1 hmem
  split at hsend
  · exact List.not_mem_nil hsend
  · next hne =>
    unfold WsHub.sendTo at hsend
    split at hsend
    · obtain ⟨c', -, heq⟩ := List.mem_map.1 hsend
      exact hne (congrArg (fun d => some d.userId) heq).symm
    · exact List.not_mem_nil hsend

theorem not_received {action : HostAction} (hparse : parseMmOrUuid env.parseStr req.sessionId = some session)
    (htarget : targetOf env call session = .ok userId) (h : action.handle env req (some call) = .ok envs)
    {hubs : ℕ → WsHub} {c : Uuid} : ¬ ∃ k envelope, envs[k]? = some envelope ∧ envelope.event = action.event ∧
      ⟨userId, c, envelope.serialize⟩ ∈ (hubs k).broadcastLocal envelope := by
  rintro ⟨k, envelope, hk, hevent, hreceived⟩
  have hexcluded := excluded_of_handle hparse htarget h (List.mem_of_getElem? hk) hevent
  exact not_mem_broadcastLocal hexcluded hreceived

end Targets

/-- The signal of a request that is carried out goes to all live connections of the participant exactly if there are
none. -/
theorem delivered_iff (env : Env) (req : HostRequest) (call : CallState) (action : HostAction) (session userId : Uuid)
    (envs : List WsEnvelope) (hparse : parseMmOrUuid env.parseStr req.sessionId = some session)
    (htarget : targetOf env call session = .ok userId)
    (h : action.handle env req (some call) = .ok envs) (hubs : ℕ → WsHub) :
    Delivered hubs envs action.event userId ↔ ¬ ∃ c, ∀ k, (hubs k).IsConnected userId c :=
  ⟨fun hall ⟨c, hc⟩ => not_received hparse htarget h (hall c hc), fun hnone c hc => absurd ⟨c, hc⟩ hnone⟩

/-! ### A call of two -/

/-- The user `1` is the host, and the user `2` has the session `7`. -/
def twoInCall : CallState where
  callId := 3
  channelId := 4
  ownerId := 1
  hostId := 1
  startedAt := 0
  participants := Participants.empty.insert ⟨2, 7, 0, false, false, false⟩
  screenSharer := none
  threadId := none
  dismissedUsers := ∅

def ofSecond : HostRequest := ⟨"town", 4, (7 : Uuid).hyphenated⟩

/-- The user `2` has a connection that gets the events of the channel. -/
def secondOnline : WsHub := (WsHub.new.addConnection 2 "b" 5).subscribeChannel 2 4

theorem parse_ofSecond : parseMmOrUuid (Env.plain 1 8 9).parseStr ofSecond.sessionId = some 7 := by
  have hparse : (Env.plain 1 8 9).parseStr ofSecond.sessionId = some 7 := Uuid.ofHyphenated_hyphenated 7
  rw [parseMmOrUuid, hparse]
  rfl

theorem targetOf_twoInCall : targetOf (Env.plain 1 8 9) twoInCall 7 = .ok 2 := by decide

theorem exists_muted : ∃ envs, HostAction.mute.handle (Env.plain 1 8 9) ofSecond (some twoInCall) = .ok envs := by
  have htarget : target (Env.plain 1 8 9) ofSecond (some twoInCall) "Only the host can mute other participants" =
      .ok (twoInCall, 2) := by
    rw [target, parse_ofSecond]
    rfl
  rw [HostAction.handle, hostMute, htarget]
  exact ⟨_, rfl⟩

/-- A participant who is online is muted and gets no signal. -/
theorem muted_not_signalled : ∃ envs, HostAction.mute.handle (Env.plain 1 8 9) ofSecond (some twoInCall) = .ok envs ∧
    secondOnline.IsConnected 2 5 ∧ ¬ Delivered (fun _ => secondOnline) envs HostAction.mute.event 2 := by
  obtain ⟨envs, henvs⟩ := exists_muted
  have honline : secondOnline.IsConnected 2 5 := by decide
  exact ⟨envs, henvs, honline, fun h => not_received parse_ofSecond targetOf_twoInCall henvs (h 5 fun _ => honline)⟩

theorem offline_signalled : ∃ envs, HostAction.mute.handle (Env.plain 1 8 9) ofSecond (some twoInCall) = .ok envs ∧
    (Delivered (fun _ => .new) envs HostAction.mute.event 2 ↔ ¬ ∃ c, ∀ _ : ℕ, WsHub.new.IsConnected 2 c) := by
  obtain ⟨envs, henvs⟩ := exists_muted
  exact ⟨envs, henvs, delivered_iff _ ofSecond twoInCall .mute 7 2 envs parse_ofSecond targetOf_twoInCall henvs _⟩

end HostEvents

end Rustchat.Calls
