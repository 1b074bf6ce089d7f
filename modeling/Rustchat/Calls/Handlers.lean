import Rustchat.Calls.Manager
import Rustchat.Events

/-!
# Requests on calls (`calls_plugin/mod.rs`, `/call` of `integrations.rs`)

The handlers that add, change and remove calls, as programs over the methods of the call manager. An `Env` is what a
handler finds elsewhere: who asks, the answers of the database and of the SFU, the clock, new ids and the order in which
a hash map gives its values. Events are left out, but not the methods that are called to make them. The path of an HTTP
request has been resolved to a channel. Handlers that only read calls (`get_call_state` apart) are left out.
-/

namespace Rustchat.Calls

/-- The order in which hash maps are iterated. -/
structure HashOrder where
  sort : {α : Type} → List α → List α
  perm : ∀ {α : Type} (l : List α), (sort l).Perm l

structure Env where
  userId : Uuid
  -- `Uuid::parse_str`
  parseStr : String → Option Uuid
  -- the row of `channel_members`
  member : Uuid → Except String Bool
  channelCallsEnabled : Uuid → Bool
  isAdmin : Bool
  now : Int
  newCallId : Uuid
  newSessionId : Uuid
  -- the posts that `create_call_thread_post` makes
  threadPost : ℕ → Option Uuid
  getOrCreateSfu : Except String Unit
  sfuHasParticipant : Bool
  sfuAddParticipant : Except String Unit
  -- what `/call` reads and writes elsewhere: the setting in the database and that in the environment
  callsPlugin : Except AppError (Option String × Bool)
  username : Except AppError String
  createPost : Except AppError Unit
  order : HashOrder

/-- Nothing fails, and everybody is in every channel. -/
def Env.plain (userId newCallId newSessionId : Uuid) : Env where
  userId
  parseStr := Uuid.ofHyphenated
  member _ := .ok true
  channelCallsEnabled _ := true
  isAdmin := false
  now := 0
  newCallId
  newSessionId
  threadPost _ := none
  getOrCreateSfu := .ok ()
  sfuHasParticipant := false
  sfuAddParticipant := .ok ()
  callsPlugin := .ok (none, true)
  username := .ok "user"
  createPost := .ok ()
  order := ⟨id, fun _ => .rfl⟩

abbrev Handler (ε α : Type) := ExceptT ε (Prog ManagerAct ManagerAct.Res) α

section Methods

variable {ε : Type}

def getCall (callId : Uuid) : Handler ε (Option CallState) :=
  ExceptT.lift (Prog.call (ManagerAct.getCall callId))

def getCallByChannel (channelId : Uuid) : Handler ε (Option CallState) :=
  ExceptT.lift (Prog.call (ManagerAct.getCallByChannel channelId))

def getAllCalls : Handler ε (List CallState) := ExceptT.lift (Prog.call ManagerAct.getAllCalls)

def addCall (call : CallState) : Handler ε Unit := ExceptT.lift (Prog.call (ManagerAct.addCall call))

def removeCall (callId : Uuid) : Handler ε Unit := ExceptT.lift (Prog.call (ManagerAct.removeCall callId))

def mutateCall (callId : Uuid) (mutation : Mutation) : Handler ε Unit :=
  ExceptT.lift (Prog.call (ManagerAct.mutateCall callId mutation))

def scheduleTimeout (kind : Timeout) (callId : Uuid) : Handler ε Unit :=
  ExceptT.lift (Prog.call (ManagerAct.scheduleTimeout kind callId))

def getParticipant (callId userId : Uuid) : Handler ε (Option Participant) := do
  let call ← getCall callId
  pure (call.bind (·.participants.lookup userId))

def addParticipant (callId : Uuid) (participant : Participant) : Handler ε Unit :=
  mutateCall callId (.addParticipant participant)

def removeParticipant (callId userId : Uuid) : Handler ε Unit := mutateCall callId (.removeParticipant userId)

def forEach {α : Type} (f : α → Handler ε Unit) : List α → Handler ε Unit
  | [] => pure ()
  | a :: as => do
    f a
    forEach f as

def ofExcept {α : Type} (r : Except ε α) : Handler ε α := ExceptT.mk (pure r)

end Methods

section Shared

variable {ε : Type} (env : Env)

def newCall (callId channelId : Uuid) (threadId : Option Uuid) : CallState where
  callId
  channelId
  ownerId := env.userId
  hostId := env.userId
  startedAt := env.now
  participants := .empty
  screenSharer := none
  threadId
  dismissedUsers := ∅

def newParticipant (sessionId : Uuid) : Participant := ⟨env.userId, sessionId, env.now, true, false, false⟩

def checkChannelPermission (channelId : Uuid) : Except AppError Unit :=
  match env.member channelId with
  | .error e => .error (.internal ("Database error: " ++ e))
  | .ok false => .error (.forbidden "You are not a member of this channel")
  | .ok true => .ok ()

def checkCallsEnabled (channelId : Uuid) : Except AppError Unit :=
  if env.channelCallsEnabled channelId then .ok () else .error (.forbidden "Calls are disabled in this channel")

def ensureCallThreadId (k : ℕ) (call : CallState) : Handler ε (Option Uuid) :=
  match call.threadId with
  | some threadId => pure (some threadId)
  | none =>
    match env.threadPost k with
    | some threadId => do
      mutateCall call.callId (.setThreadId (some threadId))
      pure (some threadId)
    | none => pure none

def buildCallStateResponse (k : ℕ) (call : CallState) : Handler ε Unit := do
  let _ ← ensureCallThreadId env k call
  let _ ← getCall call.callId

def broadcastCallStateEvent (k : ℕ) (channelId : Uuid) : Handler ε Unit := do
  match ← getCallByChannel channelId with
  | none => pure ()
  | some call => buildCallStateResponse env k call

def broadcastScreenShareEvent (channelId : Uuid) : Handler ε Unit := do
  let _ ← getCallByChannel channelId

def canManageCall (call : CallState) : Bool := call.hostId == env.userId || env.isAdmin

def isHostSessionActive (call : CallState) : Bool := (call.participants.lookup call.hostId).isSome

def hostIsStale (call : CallState) : Bool := call.participants.len != 0 && !isHostSessionActive call

def normalizeCallHostIfStale (call : CallState) : Handler ε CallState :=
  if hostIsStale call then
    match selectNextHost call.participants with
    | none => pure call
    | some newHostId => do
      mutateCall call.callId (.setHost newHostId)
      broadcastCallStateEvent env 0 call.channelId
      let updated ← getCall call.callId
      pure (updated.getD call)
  else pure call

/-- The host left, or has left before. -/
def shouldSelectNewHost (call : CallState) (departedUserId : Uuid) : Bool :=
  call.hostId == departedUserId || hostIsStale call

def handOver (call : CallState) (departedUserId : Uuid) : Handler ε CallState :=
  if shouldSelectNewHost call departedUserId then
    match selectNextHost call.participants with
    | none => pure call
    | some newHostId => do
      mutateCall call.callId (.setHost newHostId)
      let updated ← getCall call.callId
      pure (updated.getD call)
  else pure call

def reconcileAfterParticipantLeft (callId channelId departedUserId : Uuid) : Handler ε ℕ := do
  match ← getCall callId with
  | none => pure 0
  | some call =>
    let call ← handOver call departedUserId
    broadcastCallStateEvent env 0 channelId
    pure call.participants.len

def participantLeft (callId channelId userId : Uuid) : Handler ε Unit := do
  removeParticipant callId userId
  let remaining ← reconcileAfterParticipantLeft env callId channelId userId
  if remaining ≤ 1 then scheduleTimeout .empty callId

def endCall (callId : Uuid) : Handler ε Unit := do
  let _ ← getCall callId
  removeCall callId

inductive Reply
  | ok
  | started (callId channelId : Uuid) (startAt : Int) (ownerId hostId : Uuid)
  | command (text : String)
  -- the text shows both settings
  | notEnabled (db : Option String) (env : Bool)

def Reply.ofCall (call : CallState) : Reply :=
  .started call.callId call.channelId call.startedAt call.ownerId call.hostId

end Shared

section Http

variable (env : Env)

def noActiveCall : AppError := .notFound "No active call in this channel"

def activeCall (channel : Uuid) : Handler AppError CallState := do
  match ← getCallByChannel channel with
  | some call => pure call
  | none => throw noActiveCall

/-- The path may also be that of a call. -/
def channelOrCall (channel : Uuid) : Handler AppError (Option CallState) := do
  match ← getCallByChannel channel with
  | some call => pure (some call)
  | none => getCall channel

def joinSfu (failed : String) : Except AppError Unit := do
  env.getOrCreateSfu.mapError fun e => .internal (failed ++ e)
  env.sfuAddParticipant.mapError fun e => .internal ("Failed to add participant to SFU: " ++ e)

def startCall (channel : Uuid) : Handler AppError Reply := do
  ofExcept (checkChannelPermission env channel)
  ofExcept (checkCallsEnabled env channel)
  match ← getCallByChannel channel with
  | some call => pure (.ofCall call)
  | none =>
    let call := newCall env env.newCallId channel none
    addCall call
    let _ ← ensureCallThreadId env 0 call
    addParticipant call.callId (newParticipant env env.newSessionId)
    ofExcept (joinSfu env "Failed to create SFU: ")
    broadcastCallStateEvent env 1 channel
    scheduleTimeout .unanswered call.callId
    pure (.ofCall call)

def joinCall (channel : Uuid) : Handler AppError Reply := do
  ofExcept (checkChannelPermission env channel)
  ofExcept (checkCallsEnabled env channel)
  match ← channelOrCall channel with
  | none => throw noActiveCall
  | some call =>
    match ← getParticipant call.callId env.userId with
    | some _ => pure .ok
    | none =>
      addParticipant call.callId (newParticipant env env.newSessionId)
      ofExcept (joinSfu env "Failed to get or create SFU: ")
      broadcastCallStateEvent env 0 channel
      pure .ok

def leaveCall (channel : Uuid) : Handler AppError Reply := do
  match ← getCallByChannel channel with
  | none => pure .ok
  | some call =>
    let _ ← getParticipant call.callId env.userId
    participantLeft env call.callId channel env.userId
    pure .ok

def mayEndCall (call : CallState) : Bool :=
  let callerIsParticipant := (call.participants.lookup env.userId).isSome
  let callerIsOnlyParticipant := decide (call.participants.len ≤ 1) && callerIsParticipant
  let hostSessionInactive := callerIsParticipant && !isHostSessionActive call
  canManageCall env call || callerIsOnlyParticipant || hostSessionInactive

def endCallEndpoint (channel : Uuid) : Handler AppError Reply := do
  match ← channelOrCall channel with
  | none => pure .ok
  | some call =>
    ofExcept (checkChannelPermission env call.channelId)
    let call ← normalizeCallHostIfStale env call
    if mayEndCall env call then
      endCall call.callId
      pure .ok
    else throw (.forbidden "Only the host can end this call")

def getCallState (channel : Uuid) : Handler AppError Reply := do
  ofExcept (checkChannelPermission env channel)
  match ← channelOrCall channel with
  | none => throw noActiveCall
  | some call =>
    buildCallStateResponse env 0 call
    pure .ok

def asParticipant (channel : Uuid) (act : CallState → Participant → Handler AppError Unit) :
    Handler AppError Reply := do
  let call ← activeCall channel
  match ← getParticipant call.callId env.userId with
  | none => throw (.forbidden "You are not in this call")
  | some participant =>
    act call participant
    pure .ok

def toggleScreenShare (channel : Uuid) : Handler AppError Reply :=
  asParticipant env channel fun call participant => do
    let isSharing := !participant.screenSharing
    mutateCall call.callId (.setScreenSharing env.userId isSharing)
    if isSharing then mutateCall call.callId (.setScreenSharer (some env.userId))
    else if call.screenSharer = some env.userId then mutateCall call.callId (.setScreenSharer none)
    broadcastScreenShareEvent channel

def muteUser (channel : Uuid) : Handler AppError Reply :=
  asParticipant env channel fun call _ => mutateCall call.callId (.setMuted env.userId true)

def unmuteUser (channel : Uuid) : Handler AppError Reply :=
  asParticipant env channel fun call _ => mutateCall call.callId (.setMuted env.userId false)

def raiseHand (channel : Uuid) : Handler AppError Reply :=
  asParticipant env channel fun call _ => mutateCall call.callId (.setHandRaised env.userId true)

def lowerHand (channel : Uuid) : Handler AppError Reply :=
  asParticipant env channel fun call _ => mutateCall call.callId (.setHandRaised env.userId false)

def asHost (channel : Uuid) (forbidden : String) (act : CallState → Handler AppError Unit) :
    Handler AppError Reply := do
  let call ← activeCall channel
  let call ← normalizeCallHostIfStale env call
  if canManageCall env call then
    act call
    pure .ok
  else throw (.forbidden forbidden)

def targetOf (call : CallState) (targetSessionId : Uuid) : Except AppError Uuid :=
  match (env.order.sort call.participants.values).find? (·.sessionId == targetSessionId) with
  | some p => .ok p.userId
  | none => .error (.notFound "Participant not found in call")

def toParticipant (channel : Uuid) (sessionId : String) (forbidden : String)
    (act : CallState → Uuid → Handler AppError Unit) : Handler AppError Reply :=
  match parseMmOrUuid env.parseStr sessionId with
  | none => throw (.badRequest "Invalid session_id")
  | some targetSessionId =>
    asHost env channel forbidden fun call => do
      let targetUserId ← ofExcept (targetOf env call targetSessionId)
      act call targetUserId

def hostScreenOff (channel : Uuid) (sessionId : String) : Handler AppError Reply :=
  toParticipant env channel sessionId "Only the host can stop screen sharing" fun call targetUserId => do
    mutateCall call.callId (.setScreenSharing targetUserId false)
    if call.screenSharer = some targetUserId then mutateCall call.callId (.setScreenSharer none)
    broadcastScreenShareEvent channel

def hostMute (channel : Uuid) (sessionId : String) : Handler AppError Reply :=
  toParticipant env channel sessionId "Only the host can mute other participants" fun call targetUserId =>
    mutateCall call.callId (.setMuted targetUserId true)

def hostLowerHand (channel : Uuid) (sessionId : String) : Handler AppError Reply :=
  toParticipant env channel sessionId "Only the host can lower hands" fun call targetUserId =>
    mutateCall call.callId (.setHandRaised targetUserId false)

def hostRemoveUser (channel : Uuid) (sessionId : String) : Handler AppError Reply :=
  toParticipant env channel sessionId "Only the host can remove participants" fun call targetUserId => do
    if targetUserId = env.userId then
      throw (.badRequest "Host cannot remove themselves with this endpoint; use leave_call instead")
    else participantLeft env call.callId channel targetUserId

def hostMuteOthers (channel : Uuid) : Handler AppError Reply :=
  asHost env channel "Only the host can mute other participants" fun call =>
    forEach (fun p => mutateCall call.callId (.setMuted p.userId true))
      ((env.order.sort call.participants.values).filter fun p => p.userId != env.userId)

def hostMakeModerator (channel : Uuid) (newHostId : String) : Handler AppError Reply :=
  match parseMmOrUuid env.parseStr newHostId with
  | none => throw (.badRequest "Invalid new_host_id")
  | some newHost =>
    asHost env channel "Only the host can transfer host status" fun call =>
      match call.participants.lookup newHost with
      | none => throw (.badRequest "New host must be a participant in the call")
      | some _ => do
        mutateCall call.callId (.setHost newHost)
        broadcastCallStateEvent env 1 channel

def ringUsers (channel : Uuid) : Handler AppError Reply := do
  ofExcept (checkChannelPermission env channel)
  match ← getCallByChannel channel with
  | none => throw (.notFound "No active call to ring")
  | some call =>
    let _ ← ensureCallThreadId env 0 call
    pure .ok

def dismissNotification (channel : Uuid) : Handler AppError Reply := do
  ofExcept (checkChannelPermission env channel)
  match ← getCallByChannel channel with
  | none => pure ()
  | some call => mutateCall call.callId (.dismissUserNotification env.userId)
  broadcastCallStateEvent env 0 channel
  pure .ok

/-- `/call end` and `/call stop`. -/
def callCommandEnd (channel : Uuid) : Handler AppError Reply := do
  match ← getCallByChannel channel with
  | none => pure (.command "No active call found in this channel")
  | some call =>
    let found ← getCall call.callId
    let participants := found.elim [] (·.participants.values)
    forEach (fun p => removeParticipant call.callId p.userId) (env.order.sort participants)
    removeCall call.callId
    pure (.command "Call ended")

def callCommandStart (channel : Uuid) (username : String) : Handler AppError Reply := do
  match ← getCallByChannel channel with
  | some call =>
    match ← getParticipant call.callId env.userId with
    | some _ => pure ()
    | none => addParticipant call.callId (newParticipant env env.newSessionId)
    pure (.command ("@" ++ username ++ " joined the call"))
  | none =>
    addCall (newCall env env.newCallId channel none)
    addParticipant env.newCallId (newParticipant env env.newSessionId)
    ofExcept env.createPost
    pure (.command "Call started")

def callCommand (channel : Uuid) (args : String) : Handler AppError Reply := do
  let (db, enabled) ← ofExcept env.callsPlugin
  if db.elim enabled (· == "true") then
    let username ← ofExcept env.username
    if args = "end" ∨ args = "stop" then callCommandEnd env channel
    else callCommandStart env channel username
  else pure (.notEnabled db enabled)

end Http

section Ws

variable (env : Env)

/-- `to_string` of an error. -/
def errorText : AppError → String
  | .notFound e => "Not found: " ++ e
  | .badRequest e => "Bad request: " ++ e
  | .forbidden e => "Forbidden: " ++ e
  | .validation e => "Validation error: " ++ e
  | .conflict e => "Conflict: " ++ e
  | .internal e => "Internal server error: " ++ e
  | .database => "Database error: "

def resolveWsSessionUuid (connectionId : String) (data : Option Json) : Except String Uuid :=
  match env.parseStr connectionId with
  | none => .error ("Invalid connection ID: " ++ connectionId)
  | some defaultSessionId =>
    let value := data.bind fun data =>
      (data.get? "originalConnID").or ((data.get? "original_conn_id").or (data.get? "originalConnId"))
    let originalSessionId := (value.bind Json.asStr).bind env.parseStr
    .ok (originalSessionId.getD defaultSessionId)

def parseJoinChannelId (data : Json) : Except String Uuid :=
  let value := (data.get? "channelID").or ((data.get? "channel_id").or (data.get? "channelId"))
  match value.bind Json.asStr with
  | none => .error "Missing channel ID in join payload"
  | some raw =>
    match parseMmOrUuid env.parseStr raw with
    | none => .error ("Invalid channel ID: " ++ raw)
    | some channelId => .ok channelId

def threadIdOf (data : Json) : Option Uuid :=
  ((data.get? "threadID").bind Json.asStr).bind (parseMmOrUuid env.parseStr)

def findCallForSession (sessionId : Uuid) : Handler String (Option CallState) := do
  let calls ← getAllCalls
  pure ((env.order.sort calls).find? fun call =>
    ((call.participants.lookup env.userId).map (·.sessionId)) == some sessionId)

def multipleCalls : String := "Multiple active calls found for user session resolution"

def findMemberCallsForUser : Handler String (List CallState) := do
  let calls ← getAllCalls
  ofExcept (((env.order.sort calls).filterM fun call => env.member call.channelId).mapError fun e =>
    "Database error while resolving call membership: " ++ e)

def resolveCallForWsConnection (requestedSessionId : Uuid) : Handler String (CallState × Uuid) := do
  match ← findCallForSession env requestedSessionId with
  | some call => pure (call, requestedSessionId)
  | none =>
    let calls ← getAllCalls
    let userCalls := (env.order.sort calls).filterMap fun call =>
      (call.participants.lookup env.userId).map fun p => (call, p.sessionId)
    match userCalls with
    | [found] => pure found
    | _ :: _ :: _ => throw multipleCalls
    | [] =>
      match ← findMemberCallsForUser env with
      | [call] => pure (call, requestedSessionId)
      | _ :: _ :: _ => throw multipleCalls
      | [] => throw "No active call found for connection"

def callToJoin (channel : Uuid) (data : Json) : Handler String (CallState × Bool) := do
  match ← getCallByChannel channel with
  | some call => pure (call, false)
  | none =>
    let call := newCall env env.newCallId channel (threadIdOf env data)
    addCall call
    pure (call, true)

/-- A participant with another session is replaced. -/
def joinWithSession (callId connUuid : Uuid) : Handler String Unit := do
  match ← getParticipant callId env.userId with
  | some existing =>
    if existing.sessionId = connUuid then pure ()
    else addParticipant callId (newParticipant env connUuid)
  | none => addParticipant callId (newParticipant env connUuid)

def wsJoinSfu : Except String Unit := do
  env.getOrCreateSfu.mapError fun e => "Failed to get or create SFU: " ++ e
  if env.sfuHasParticipant then pure ()
  else env.sfuAddParticipant.mapError fun e => "Failed to add participant to SFU: " ++ e

def callStarted (callId : Uuid) (createdCall : Bool) : Handler String Unit :=
  if createdCall then scheduleTimeout .unanswered callId else pure ()

def handleWsJoinCall (connectionId : String) (data : Option Json) : Handler String Unit := do
  match data with
  | none => throw "Missing join payload"
  | some data =>
    let connUuid ← ofExcept (resolveWsSessionUuid env connectionId (some data))
    let channel ← ofExcept (parseJoinChannelId env data)
    ofExcept ((checkChannelPermission env channel).mapError errorText)
    if env.channelCallsEnabled channel then
      let (call, createdCall) ← callToJoin env channel data
      joinWithSession env call.callId connUuid
      ofExcept (wsJoinSfu env)
      let _ ← ensureCallThreadId env 0 call
      callStarted call.callId createdCall
      broadcastCallStateEvent env 1 channel
    else throw "Calls are disabled in this channel"

def handleWsLeaveCall (connectionId : String) : Handler String Unit := do
  let requestedSessionId ← ofExcept (resolveWsSessionUuid env connectionId none)
  match ← ExceptT.lift (resolveCallForWsConnection env requestedSessionId).run with
  | .ok (call, _) => participantLeft env call.callId call.channelId env.userId
  | .error _ => pure ()

def handleWsConnectionClosed (connectionId : String) : Handler String Unit := do
  match env.parseStr connectionId with
  | none => pure ()
  | some sessionId =>
    match ← findCallForSession env sessionId with
    | none => pure ()
    | some call => participantLeft env call.callId call.channelId env.userId

def handleWsMute (connectionId : String) (data : Option Json) (muted : Bool) : Handler String Unit := do
  let requestedSessionId ← ofExcept (resolveWsSessionUuid env connectionId data)
  let (call, sessionId) ← resolveCallForWsConnection env requestedSessionId
  match ← getParticipant call.callId env.userId with
  | some _ => pure ()
  -- recover from reconnect races where mute arrives before join has associated the participant again
  | none => addParticipant call.callId (newParticipant env sessionId)
  mutateCall call.callId (.setMuted env.userId muted)

def handleWsRaiseHand (connectionId : String) (raised : Bool) : Handler String Unit := do
  let requestedSessionId ← ofExcept (resolveWsSessionUuid env connectionId none)
  let (call, _) ← resolveCallForWsConnection env requestedSessionId
  mutateCall call.callId (.setHandRaised env.userId raised)

end Ws

/-! ### Timeouts -/

/-- A call with more than one participant goes on. -/
def endCallIfAlone (callId : Uuid) : Handler AppError Reply := do
  match ← getCall callId with
  | none => pure .ok
  | some call =>
    if 1 < call.participants.len then pure .ok
    else
      endCall call.callId
      pure .ok

def endCallIfStillUnanswered (callId : Uuid) : Handler AppError Reply := endCallIfAlone callId

def endCallIfStillEmpty (callId : Uuid) : Handler AppError Reply := endCallIfAlone callId

/-! ### All of them -/

inductive Request
  | startCall (channel : Uuid)
  | joinCall (channel : Uuid)
  | leaveCall (channel : Uuid)
  | endCall (channel : Uuid)
  | getCallState (channel : Uuid)
  | toggleScreenShare (channel : Uuid)
  | muteUser (channel : Uuid)
  | unmuteUser (channel : Uuid)
  | raiseHand (channel : Uuid)
  | lowerHand (channel : Uuid)
  | hostScreenOff (channel : Uuid) (sessionId : String)
  | hostMute (channel : Uuid) (sessionId : String)
  | hostLowerHand (channel : Uuid) (sessionId : String)
  | hostRemoveUser (channel : Uuid) (sessionId : String)
  | hostMuteOthers (channel : Uuid)
  | hostMakeModerator (channel : Uuid) (newHostId : String)
  | ringUsers (channel : Uuid)
  | dismissNotification (channel : Uuid)
  | callCommand (channel : Uuid) (args : String)
  | wsJoin (connectionId : String) (data : Option Json)
  | wsLeave (connectionId : String)
  | wsMute (connectionId : String) (data : Option Json) (muted : Bool)
  | wsRaiseHand (connectionId : String) (raised : Bool)
  | wsConnectionClosed (connectionId : String)

/-- An error over the websocket is only sent back. -/
def overWs (p : Handler String Unit) : Handler AppError Reply := do
  let _ ← ExceptT.lift p.run
  pure .ok

def Request.handler (env : Env) : Request → Handler AppError Reply
  | startCall channel => Calls.startCall env channel
  | joinCall channel => Calls.joinCall env channel
  | leaveCall channel => Calls.leaveCall env channel
  | endCall channel => endCallEndpoint env channel
  | getCallState channel => Calls.getCallState env channel
  | toggleScreenShare channel => Calls.toggleScreenShare env channel
  | muteUser channel => Calls.muteUser env channel
  | unmuteUser channel => Calls.unmuteUser env channel
  | raiseHand channel => Calls.raiseHand env channel
  | lowerHand channel => Calls.lowerHand env channel
  | hostScreenOff channel sessionId => Calls.hostScreenOff env channel sessionId
  | hostMute channel sessionId => Calls.hostMute env channel sessionId
  | hostLowerHand channel sessionId => Calls.hostLowerHand env channel sessionId
  | hostRemoveUser channel sessionId => Calls.hostRemoveUser env channel sessionId
  | hostMuteOthers channel => Calls.hostMuteOthers env channel
  | hostMakeModerator channel newHostId => Calls.hostMakeModerator env channel newHostId
  | ringUsers channel => Calls.ringUsers env channel
  | dismissNotification channel => Calls.dismissNotification env channel
  | callCommand channel args => Calls.callCommand env channel args
  | wsJoin connectionId data => overWs (handleWsJoinCall env connectionId data)
  | wsLeave connectionId => overWs (handleWsLeaveCall env connectionId)
  | wsMute connectionId data muted => overWs (handleWsMute env connectionId data muted)
  | wsRaiseHand connectionId raised => overWs (handleWsRaiseHand env connectionId raised)
  | wsConnectionClosed connectionId => overWs (handleWsConnectionClosed env connectionId)

def Timeout.handler : Timeout → Uuid → Handler AppError Reply
  | unanswered => endCallIfStillUnanswered
  | empty => endCallIfStillEmpty

/-- What a node does about calls: a request, or the end of a timeout. -/
inductive Job
  | request (env : Env) (request : Request)
  | timeout (kind : Timeout) (callId : Uuid)

def Job.handler : Job → Handler AppError Reply
  | request env r => r.handler env
  | timeout kind callId => kind.handler callId

end Rustchat.Calls
