import Rustchat.Posts
import Rustchat.Lib.Run

/-!
# Who changes a channel (`api/websocket_core.rs`, `api/v4/websocket.rs`, `api/v4/users/channels_ext.rs`)

What a user can write into a channel or signal there: the post handlers, the commands of the v1 and the v4
sockets and the typing endpoint. `create_post` asks for the membership of the caller. An edit or a deletion
asks who wrote the post, and a typing event asks nothing (`WriteState.allowed_iff_memberActs`).
-/

namespace Rustchat

/-! ### Requests -/

def TypingEvent.toJson (typing : TypingEvent) : Json :=
  .obj ([("user_id", .str typing.userId.hyphenated), ("display_name", .str typing.displayName)] ++
    (typing.threadRootId.map fun id => ("thread_root_id", Json.str id.hyphenated)).toList)

def typingEvent (event : EventType) (typing : TypingEvent) (channelId : Uuid) : WsEnvelope :=
  (WsEnvelope.new event typing.toJson (some channelId)).withBroadcast ⟨some channelId, none, none,
    some typing.userId⟩

/-- A command of a client; its `seq` goes into the answer to a ping only. -/
structure ClientEnvelope where
  event : String
  data : Json
  channelId : Option Uuid
  clientMsgId : Option String

structure EnvelopeCommandOptions where
  allowSendMessage : Bool

def EnvelopeCommandOptions.V1 : EnvelopeCommandOptions := ⟨true⟩

def EnvelopeCommandOptions.V4 : EnvelopeCommandOptions := ⟨false⟩

variable (codecs : Codecs) (isAlphanumeric : Char → Bool)

def CreatePost.ofJson (v : Json) : Option CreatePost := do
  return {
    message := ← v.field "message" Json.asStr
    rootPostId := ← v.optField "root_post_id" codecs.uuid
    props := ← v.optField "props" some
    fileIds := ← v.defField "file_ids" (Json.asList codecs.uuid) []
    clientMsgId := ← v.optField "client_msg_id" Json.asStr }

/-- The text of an id (`parse_mm_or_uuid`). -/
def idOfJson (v : Json) : Option Uuid := v.asStr.bind (parseMmOrUuid codecs.parseUuid)

def extractTypingChannelId (value : Json) : Option Uuid :=
  (((value.get? "data").bind (·.get? "channel_id")).bind (idOfJson codecs)).or
    ((value.get? "channel_id").bind (idOfJson codecs))

def extractTypingThreadRootId (value : Json) : Option Uuid :=
  let data := value.get? "data"
  (((data.bind (·.get? "parent_id")).bind (idOfJson codecs)).or
    ((data.bind (·.get? "thread_root_id")).bind (idOfJson codecs))).or
  (((value.get? "parent_id").bind (idOfJson codecs)).or ((value.get? "thread_root_id").bind (idOfJson codecs)))

namespace PostDb

/-- The commands that write a post or signal typing. The others do neither. -/
def handleClientEnvelope (db : PostDb) (userId : Uuid) (username : String) (envelope : ClientEnvelope)
    (options : EnvelopeCommandOptions) (drawn : Drawn) :
    Except AppError (Option PostWrite × List WsEnvelope) :=
  let typing (event : EventType) : List WsEnvelope :=
    (envelope.channelId.map (typingEvent event ⟨userId, username,
      (envelope.data.optField "thread_root_id" (idOfJson codecs)).join⟩)).toList
  if envelope.event = "send_message" ∧ options.allowSendMessage = true then
    match envelope.channelId, CreatePost.ofJson codecs envelope.data with
    | some channelId, some input =>
      (db.createPost codecs isAlphanumeric userId channelId input envelope.clientMsgId drawn).map fun res => (some res.1, res.2)
    | _, _ => .ok (none, [])
  else if envelope.event = "typing" ∨ envelope.event = "typing_start" then .ok (none, typing .userTyping)
  else if envelope.event = "typing_stop" then .ok (none, typing .userTypingStop)
  else .ok (none, [])

def handleClientValueMessage (userId : Uuid) (username : String) (value : Json) : List WsEnvelope :=
  let typing (event : EventType) : List WsEnvelope :=
    ((extractTypingChannelId codecs value).map
      (typingEvent event ⟨userId, username, extractTypingThreadRootId codecs value⟩)).toList
  match (value.get? "action").bind Json.asStr with
  | some action =>
    if action = "user_typing" ∨ action = "typing" ∨ action = "typing_start" then typing .userTyping
    else if action = "user_typing_stop" ∨ action = "stop_typing" ∨
      action = "typing_stop" then typing .userTypingStop
    else []
  | none => []

def userTyping (authUserId : Uuid) (userId channelId : String) : Except AppError (List WsEnvelope) :=
  let parse := parseMmOrUuid codecs.parseUuid
  (okOr (parse userId) (.badRequest "Invalid user ID")).bind fun userId =>
  (okOr (parse channelId) (.badRequest "Invalid channel ID")).bind fun channelId =>
  (ensure (userId = authUserId) (.forbidden "Mismatch user_id")).bind fun _ =>
    .ok [typingEvent .userTyping ⟨authUserId, "", none⟩ channelId]

end PostDb

/-- A text message of a v4 socket is taken as an action first and as a command then. -/
inductive WriteRequest where
  | post (request : PostRequest)
  | envelope (userId : Uuid) (username : String) (command : ClientEnvelope) (options : EnvelopeCommandOptions)
  | value (userId : Uuid) (username : String) (message : Json)
  | userTyping (authUserId : Uuid) (userId channelId : String)

def PostRequest.userId : PostRequest → Uuid
  | createPost userId _ _ | createPostHandler userId _ | updatePostV4 userId _ _ _ | patchPost userId _ _
  | deletePostV4 userId _ => userId
  | updatePost auth _ _ | deletePost auth _ => auth.userId

/-- The native edit and deletion accept an administrator. -/
def PostRequest.adminFull : PostRequest → Bool
  | updatePost auth _ _ | deletePost auth _ => auth.adminFull
  | _ => false

namespace WriteRequest

def handle (db : PostDb) (drawn : Drawn) : WriteRequest → Except AppError (Option PostWrite × List WsEnvelope)
  | post request => (request.handle codecs isAlphanumeric db drawn).map fun res => (some res.1, res.2)
  | envelope userId username command options =>
    db.handleClientEnvelope codecs isAlphanumeric userId username command options drawn
  | value userId username message => .ok (none, PostDb.handleClientValueMessage codecs userId username message)
  | userTyping authUserId userId channelId =>
    (PostDb.userTyping codecs authUserId userId channelId).map fun envs => (none, envs)

def actor : WriteRequest → Uuid
  | post request => request.userId
  | envelope userId _ _ _ | value userId _ _ | userTyping userId _ _ => userId

def adminFull : WriteRequest → Bool
  | post request => request.adminFull
  | _ => false

def typingChannel : WriteRequest → Option Uuid
  | post _ => none
  | envelope _ _ command _ =>
    if command.event = "typing" ∨ command.event = "typing_start" ∨
      command.event = "typing_stop" then command.channelId
    else none
  | value _ _ message =>
    match (message.get? "action").bind Json.asStr with
    | some action =>
      if (action = "user_typing" ∨ action = "typing" ∨ action = "typing_start") ∨
          action = "user_typing_stop" ∨ action = "stop_typing" ∨ action = "typing_stop" then
        extractTypingChannelId codecs message
      else none
    | none => none
  | userTyping authUserId userId channelId =>
    if parseMmOrUuid codecs.parseUuid userId = some authUserId then parseMmOrUuid codecs.parseUuid channelId else none

end WriteRequest

/-! ### Access -/

def PostAction.changed : PostAction → Option Uuid
  | create _ _ _ => none
  | edit id _ | delete id => some id

def PostWrite.channelId (db : PostDb) : PostWrite → Option Uuid
  | insert _ post _ => some post.channelId
  | setMessage id _ _ | setDeleted id _ => (db.posts.lookup id).map Post.channelId

def PostWrite.isInsert : PostWrite → Bool
  | insert _ _ _ => true
  | _ => false

def WsEnvelope.typingChannel (env : WsEnvelope) : Option Uuid :=
  if env.event = EventType.userTyping.asStr ∨ env.event = EventType.userTypingStop.asStr then
    env.broadcast.bind WsBroadcast.channelId
  else none

inductive WriteOp where
  | join (channelId userId : Uuid)
  | remove (channelId userId : Uuid)
  -- the rest of the server changes the other tables
  | elsewhere (tables : PostDb)
  | request (request : WriteRequest) (drawn : Drawn)

namespace WriteState

def step (db : PostDb) : WriteOp → Option PostDb
  | .join channelId userId => some { db with members := db.members.insert (channelId, userId) () }
  | .remove channelId userId => some { db with members := db.members.erase (channelId, userId) }
  | .elsewhere tables => some { tables with posts := db.posts, members := db.members, nextSeq := db.nextSeq }
  | .request request drawn =>
    match request.handle codecs isAlphanumeric db drawn with
    | .ok (w, _) => some (w.elim db db.write)
    | .error _ => some db

/-- What a step writes and signals in a channel is caused by a member of it, or is an edit or a deletion by an
administrator. -/
def Allowed (db : PostDb) : WriteOp → Prop
  | .request request drawn => ∀ w envs, request.handle codecs isAlphanumeric db drawn = .ok (w, envs) →
      (∀ w' ∈ w, ∀ c ∈ w'.channelId db, (c, request.actor) ∈ db.members ∨ w'.isInsert = false ∧ request.adminFull = true) ∧
      ∀ env ∈ envs, ∀ c ∈ env.typingChannel, (c, request.actor) ∈ db.members
  | _ => True

/-- Edits and deletions that pass the checks of their handlers come from administrators or members, typing
requests from members. -/
def MemberActs (db : PostDb) : WriteOp → Prop
  | .request (.post request) drawn => request.Accepted codecs db drawn → request.adminFull = false →
      ∀ action, request.action codecs = some action → ∀ id ∈ action.changed, ∀ post, db.posts.lookup id = some post →
        (post.channelId, request.userId) ∈ db.members
  | .request request _ => ∀ c ∈ request.typingChannel codecs, (c, request.actor) ∈ db.members
  | _ => True

variable {codecs isAlphanumeric} {db : PostDb} {drawn : Drawn}

theorem typingChannel_typingEvent {event : EventType} {typing : TypingEvent} {channelId : Uuid}
    (he : event = .userTyping ∨ event = .userTypingStop) :
    (typingEvent event typing channelId).typingChannel = some channelId := by
  rcases he with rfl | rfl
  · rfl
  · rfl

theorem typingChannel_channelEvent {event : EventType} {data : Json} {channelId : Uuid}
    (he : event ≠ .userTyping ∧ event ≠ .userTypingStop) :
    (channelEvent event data channelId).typingChannel = none := by
  refine if_neg fun h => ?_
  obtain ⟨h₁, h₂⟩ := he
  change event.asStr = _ ∨ event.asStr = _ at h
  revert h h₁ h₂
  cases event <;> decide

theorem member_of_create {request : PostRequest} {channelId : Uuid} {rootPostId : Option Uuid} {clientMsgId : Option String}
    (hacc : request.Accepted codecs db drawn)
    (haction : request.action codecs = some (.create channelId rootPostId clientMsgId)) :
    (channelId, request.userId) ∈ db.members := by
  cases request with
  | createPost userId channelId' input =>
    obtain ⟨rfl, -, -⟩ := PostAction.create.inj (Option.some.inj haction)
    exact hacc.2.1
  | createPostHandler userId input =>
    obtain ⟨channelId', hc', he⟩ := Option.map_eq_some_iff.1 haction
    obtain ⟨rfl, -, -⟩ := PostAction.create.inj he
    obtain ⟨channelId, rootPostId, hc, -, hmay⟩ := hacc
    obtain rfl := Option.some.inj (hc.symm.trans hc')
    exact hmay.2.1
  | updatePost auth id message => cases haction
  | updatePostV4 userId postId bodyId message =>
    obtain ⟨_, -, he⟩ := Option.map_eq_some_iff.1 haction
    cases he
  | patchPost userId postId message =>
    obtain ⟨_, -, he⟩ := Option.map_eq_some_iff.1 haction
    cases he
  | deletePost auth id => cases haction
  | deletePostV4 userId postId =>
    obtain ⟨_, -, he⟩ := Option.map_eq_some_iff.1 haction
    cases he

theorem typingChannel_createdEvents {response : PostResponse} {env : WsEnvelope}
    (h : env ∈ PostDb.createdEvents codecs response) : env.typingChannel = none := by
  rcases List.mem_cons.1 h with rfl | h
  · cases response.rootPostId with
    | none => exact typingChannel_channelEvent ⟨nofun, nofun⟩
    | some r => exact typingChannel_channelEvent ⟨nofun, nofun⟩
  · obtain ⟨r, -, rfl⟩ := Option.map_eq_some_iff.1 (Option.mem_toList.1 h)
    exact typingChannel_channelEvent ⟨nofun, nofun⟩

theorem handle_channel {request : PostRequest} {w : PostWrite} {envs : List WsEnvelope}
    (h : request.handle codecs isAlphanumeric db drawn = .ok (w, envs)) :
    (∀ env ∈ envs, env.typingChannel = none) ∧ ∃ action, request.action codecs = some action ∧
      match action.changed with
      | none => w.isInsert = true ∧ ∀ c ∈ w.channelId db, (c, request.userId) ∈ db.members
      | some id => w.isInsert = false ∧ w.channelId db = (db.posts.lookup id).map Post.channelId := by
  obtain ⟨action, haction, heffect⟩ := PostRequest.handle_effect h
  have hacc := PostRequest.handle_ok_iff.1 ⟨_, h⟩
  cases action with
  | create channelId rootPostId clientMsgId =>
    obtain ⟨-, -, userId, input, user, files, props, -, rfl, rfl⟩ := heffect
    refine ⟨fun env henv => typingChannel_createdEvents henv, _, haction, rfl, fun c hc => ?_⟩
    obtain rfl := Option.some.inj hc
    exact member_of_create hacc haction
  | edit id message =>
    obtain ⟨post, data, -, rfl, rfl⟩ := heffect
    refine ⟨fun env henv => ?_, _, haction, rfl, rfl⟩
    rw [List.mem_singleton.1 henv]
    exact typingChannel_channelEvent ⟨nofun, nofun⟩
  | delete id =>
    obtain ⟨post, data, -, rfl, rfl⟩ := heffect
    refine ⟨fun env henv => ?_, _, haction, rfl, rfl⟩
    rw [List.mem_singleton.1 henv]
    exact typingChannel_channelEvent ⟨nofun, nofun⟩

theorem allowed_post_iff {request : PostRequest} :
    Allowed codecs isAlphanumeric db (.request (.post request) drawn) ↔
      MemberActs codecs db (.request (.post request) drawn) := by
  cases hres : request.handle codecs isAlphanumeric db drawn with
  | error e =>
    refine iff_of_true (fun w envs h => ?_) fun hacc => ?_
    · rw [WriteRequest.handle, hres] at h
      cases h
    · obtain ⟨res, hok⟩ := PostRequest.handle_ok_iff.2 hacc
      rw [hres] at hok
      cases hok
  | ok res =>
    obtain ⟨w, envs⟩ := res
    have hacc := PostRequest.handle_ok_iff.1 ⟨_, hres⟩
    obtain ⟨hquiet, action, haction, hchannel⟩ := handle_channel hres
    have hallowed : Allowed codecs isAlphanumeric db (.request (.post request) drawn) ↔
        ∀ c ∈ w.channelId db, (c, request.userId) ∈ db.members ∨
          w.isInsert = false ∧ request.adminFull = true := by
      have hhandle : (WriteRequest.post request).handle codecs isAlphanumeric db drawn = .ok (some w, envs) := by
        rw [WriteRequest.handle, hres]
        rfl
      constructor
      · exact fun h => (h _ _ hhandle).1 w rfl
      · intro h w' envs' h'
        obtain ⟨rfl, rfl⟩ := Prod.mk.inj (Except.ok.inj (hhandle.symm.trans h'))
        refine ⟨fun w' hw' => ?_, fun env henv c hc => ?_⟩
        · obtain rfl := Option.some.inj hw'
          exact h
        · rw [hquiet env henv] at hc
          cases hc
    have hacts : MemberActs codecs db (.request (.post request) drawn) ↔ (request.adminFull = false →
        ∀ id ∈ action.changed, ∀ post, db.posts.lookup id = some post → (post.channelId, request.userId) ∈ db.members) := by
      refine ⟨fun h hadmin => h hacc hadmin action haction, fun h _ hadmin a ha => ?_⟩
      obtain rfl := Option.some.inj (haction.symm.trans ha)
      exact h hadmin
    rw [hallowed, hacts]
    cases hid : action.changed with
    | none =>
      rw [hid] at hchannel
      exact iff_of_true (fun c hc => .inl (hchannel.2 c hc)) nofun
    | some id =>
      rw [hid] at hchannel
      obtain ⟨hinsert, hc⟩ := hchannel
      rw [hc, hinsert]
      constructor
      · intro h hadmin id' hid' post hl
        obtain rfl := Option.some.inj hid'
        refine (h post.channelId (by rw [hl]; rfl)).resolve_right fun ha => ?_
        rw [hadmin] at ha
        cases ha.2
      · intro h c hc
        obtain ⟨post, hl, rfl⟩ := Option.map_eq_some_iff.1 hc
        by_cases hadmin : request.adminFull = true
        · exact .inr ⟨rfl, hadmin⟩
        · exact .inl (h (Bool.eq_false_iff.2 hadmin) id rfl post hl)

/-- What a request other than a post request does: a typing event in the channel it names, or a new post of a member. -/
theorem allowed_typing_iff {request : WriteRequest}
    (h : ∃ envs, request.handle codecs isAlphanumeric db drawn = .ok (none, envs) ∧
      ∀ c, (∃ env ∈ envs, env.typingChannel = some c) ↔ request.typingChannel codecs = some c) :
    Allowed codecs isAlphanumeric db (.request request drawn) ↔
      ∀ c ∈ request.typingChannel codecs, (c, request.actor) ∈ db.members := by
  obtain ⟨envs, hhandle, hchannel⟩ := h
  constructor
  · intro h c hc
    obtain ⟨env, henv, hc⟩ := (hchannel c).2 hc
    exact (h _ _ hhandle).2 env henv c hc
  · intro h w envs' h'
    obtain ⟨rfl, rfl⟩ := Prod.mk.inj (Except.ok.inj (hhandle.symm.trans h'))
    refine ⟨fun w' hw => absurd hw (Option.not_mem_none w'), fun env henv c hc => ?_⟩
    exact h c ((hchannel c).1 ⟨env, henv, hc⟩)

theorem typing_toList {event : EventType} {typing : TypingEvent} {channelId : Option Uuid} {c : Uuid}
    (he : event = .userTyping ∨ event = .userTypingStop) :
    (∃ env ∈ (channelId.map (typingEvent event typing)).toList, env.typingChannel = some c) ↔
    channelId = some c := by
  cases channelId with
  | none => exact iff_of_false (fun ⟨_, h, _⟩ => by cases h) nofun
  | some c' =>
    simp only [Option.map_some, Option.toList_some, List.mem_singleton, exists_eq_left,
      typingChannel_typingEvent he]

theorem allowed_envelope_iff {userId : Uuid} {username : String} {command : ClientEnvelope} {options : EnvelopeCommandOptions} :
    Allowed codecs isAlphanumeric db (.request (.envelope userId username command options) drawn) ↔
      MemberActs codecs db (.request (.envelope userId username command options) drawn) := by
  by_cases hsend : command.event = "send_message" ∧ options.allowSendMessage = true
  · refine iff_of_true (fun w envs h => ?_) fun c hc => ?_
    · change db.handleClientEnvelope codecs isAlphanumeric userId username command options drawn = _ at h
      rw [PostDb.handleClientEnvelope, if_pos hsend] at h
      split at h
      · next channelId input hchannel hinput =>
        cases hres : db.createPost codecs isAlphanumeric userId channelId input command.clientMsgId drawn with
        | error e => rw [hres] at h; cases h
        | ok res =>
          obtain ⟨w', envs'⟩ := res
          rw [hres] at h
          obtain ⟨rfl, rfl⟩ := Prod.mk.inj (Except.ok.inj h)
          have hmay := PostDb.createPost_ok_iff.1 ⟨_, hres⟩
          obtain ⟨-, -, _, _, _, _, _, -, rfl, rfl⟩ := PostDb.createPost_effect hres
          refine ⟨fun w hw c hc => ?_, fun env henv c hc => ?_⟩
          · obtain rfl := Option.some.inj hw
            obtain rfl := Option.some.inj hc
            exact .inl hmay.2.1
          · rw [typingChannel_createdEvents henv] at hc
            cases hc
      · obtain ⟨rfl, rfl⟩ := Prod.mk.inj (Except.ok.inj h)
        exact ⟨fun w hw => absurd hw (Option.not_mem_none w), fun env henv => absurd henv List.not_mem_nil⟩
    · rw [WriteRequest.typingChannel, hsend.1, if_neg (by decide)] at hc
      cases hc
  · refine allowed_typing_iff ?_
    simp only [WriteRequest.handle, PostDb.handleClientEnvelope, if_neg hsend, WriteRequest.typingChannel]
    by_cases hstart : command.event = "typing" ∨ command.event = "typing_start"
    · rw [if_pos hstart, if_pos (hstart.imp_right .inl)]
      exact ⟨_, rfl, fun c => typing_toList (.inl rfl)⟩
    · by_cases hstop : command.event = "typing_stop"
      · rw [if_neg hstart, if_pos hstop, if_pos (.inr (.inr hstop))]
        exact ⟨_, rfl, fun c => typing_toList (.inr rfl)⟩
      · rw [if_neg hstart, if_neg hstop, if_neg (by tauto)]
        exact ⟨_, rfl, fun c => iff_of_false (fun ⟨_, h, _⟩ => nomatch h) nofun⟩

theorem allowed_value_iff {userId : Uuid} {username : String} {message : Json} :
    Allowed codecs isAlphanumeric db (.request (.value userId username message) drawn) ↔
      MemberActs codecs db (.request (.value userId username message) drawn) := by
  refine allowed_typing_iff ⟨_, rfl, fun c => ?_⟩
  simp only [PostDb.handleClientValueMessage, WriteRequest.typingChannel]
  cases ha : (message.get? "action").bind Json.asStr with
  | none => exact iff_of_false (fun ⟨_, h, _⟩ => by cases h) nofun
  | some action =>
    dsimp only
    by_cases hstart : action = "user_typing" ∨ action = "typing" ∨ action = "typing_start"
    · rw [if_pos hstart, if_pos (.inl hstart)]
      exact typing_toList (.inl rfl)
    · by_cases hstop : action = "user_typing_stop" ∨ action = "stop_typing" ∨ action = "typing_stop"
      · rw [if_neg hstart, if_pos hstop, if_pos (.inr hstop)]
        exact typing_toList (.inr rfl)
      · rw [if_neg hstart, if_neg hstop, if_neg fun h => h.elim hstart hstop]
        exact iff_of_false (fun ⟨_, h, _⟩ => by cases h) nofun

theorem allowed_userTyping_iff {authUserId : Uuid} {userId channelId : String} :
    Allowed codecs isAlphanumeric db (.request (.userTyping authUserId userId channelId) drawn) ↔
      MemberActs codecs db (.request (.userTyping authUserId userId channelId) drawn) := by
  have hhandle : (WriteRequest.userTyping authUserId userId channelId).handle codecs isAlphanumeric db drawn =
      (PostDb.userTyping codecs authUserId userId channelId).map fun envs => (none, envs) := rfl
  cases hres : PostDb.userTyping codecs authUserId userId channelId with
  | error e =>
    rw [hres] at hhandle
    refine iff_of_true (fun w envs h => ?_) fun c hc => ?_
    · rw [hhandle] at h
      cases h
    · exfalso
      change (if _ then _ else _) = some c at hc
      split at hc
      · next hu =>
        simp only [PostDb.userTyping, hu, hc, okOr, ensure, Except.bind, Option.elim, if_true] at hres
        cases hres
      · cases hc
  | ok envs =>
    rw [hres] at hhandle
    refine allowed_typing_iff ⟨envs, hhandle, fun c => ?_⟩
    simp only [PostDb.userTyping, bind_eq_ok, okOr_eq_ok, ensure_eq_ok, Except.ok.injEq] at hres
    obtain ⟨u, hu, c', hc', _, rfl, rfl⟩ := hres
    rw [WriteRequest.typingChannel, if_pos hu, hc']
    simp only [List.mem_singleton, exists_eq_left, typingChannel_typingEvent (.inl rfl)]

theorem allowed_iff {op : WriteOp} : Allowed codecs isAlphanumeric db op ↔ MemberActs codecs db op := by
  cases op with
  | join channelId userId => exact Iff.rfl
  | remove channelId userId => exact Iff.rfl
  | elsewhere tables => exact Iff.rfl
  | request request drawn =>
    cases request with
    | post request => exact allowed_post_iff
    | envelope userId username command options => exact allowed_envelope_iff
    | value userId username message => exact allowed_value_iff
    | userTyping authUserId userId channelId => exact allowed_userTyping_iff

/-- In a run everything that is written and signalled in a channel is caused by members and administrators if and
only if all edits, deletions and typing requests come from them. -/
theorem allowed_iff_memberActs (codecs : Codecs) (isAlphanumeric : Char → Bool) (db : PostDb) (ops : List WriteOp) :
    Run.AllSteps (step codecs isAlphanumeric) (Allowed codecs isAlphanumeric) db ops ↔
      Run.AllSteps (step codecs isAlphanumeric) (MemberActs codecs) db ops := by
  constructor
  · intro h pre op suf hp t ht
    exact allowed_iff.1 (h pre op suf hp t ht)
  · intro h pre op suf hp t ht
    exact allowed_iff.2 (h pre op suf hp t ht)

/-- User `2` is removed from channel `5` and then edits its post `7` there and signals typing. -/
theorem removed_member_writes :
    let codecs : Codecs := ⟨fun s => [5, 2, 7].find? fun u => u.hyphenated = s,
      fun s => if s = "1970-01-01T00:00:00Z" then some 0 else none, fun _ => "1970-01-01T00:00:00Z", id⟩
    let post : Post := ⟨5, 2, none, "a", .obj [], [], false, 0, none, none, 0, none, 0⟩
    let db : PostDb := ⟨AList.insert 7 post ∅, AList.insert (5, 2) () ∅, AList.insert 2 ⟨"member", "ann", none⟩ ∅,
      [("member", "post.create")], ∅, none, 1⟩
    ¬ Run.AllSteps (step codecs Char.isAlphanum) (Allowed codecs Char.isAlphanum) db
        [.remove 5 2, .request (.post (.updatePost ⟨2, false⟩ 7 "b")) ⟨8, 1, 1⟩] ∧
      ¬ Run.AllSteps (step codecs Char.isAlphanum) (Allowed codecs Char.isAlphanum) db
        [.remove 5 2, .request (.userTyping 2 (2 : Uuid).hyphenated (5 : Uuid).hyphenated) ⟨8, 1, 1⟩] := by
  intro codecs post db
  constructor
  · intro h
    have hedit := (h [.remove 5 2] _ [] rfl _ rfl _ _ rfl).1 _ rfl 5 rfl
    revert hedit
    decide
  · intro h
    have htyping := (h [.remove 5 2] _ [] rfl _ rfl _ _ rfl).2 _ (List.mem_singleton_self _) 5 rfl
    revert htyping
    decide

end WriteState

end Rustchat
