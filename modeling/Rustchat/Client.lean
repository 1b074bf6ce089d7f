import Rustchat.Lib.Assoc
import Rustchat.Lib.Json
import Rustchat.WireEvents

/-!
# The web client (`composables/useWebSocket.ts`, `stores/messages.ts`, `stores/unreads.ts`)

What the client keeps of messages and unread counters, and what it does with a websocket message:
`onmessage` parses the text, turns the Mattermost ids into hyphenated ones and hands the envelope to
`handleMessage`. An absent field is `undefined`. Of a message the fields are kept that the stores compare
or change, of `handleMessage` the branches that reach these two stores through an event; times, author
details, reactions and files, presence, channels and desktop notifications are left out.
-/

namespace Rustchat

namespace Client

def shouldNormalizeSingleIdKey (key : String) : Bool :=
  decide (key = "id") || "_id".toList.isSuffixOf key.toList

def shouldNormalizeIdArrayKey (key : String) : Bool := "_ids".toList.isSuffixOf key.toList

def normalizeIdText (s : String) : String := (normalizeEntityId s).getD s

def normalizeIdField (key : String) : Json → Option Json
  | .str s => if shouldNormalizeSingleIdKey key then some (.str (normalizeIdText s)) else none
  | .arr items =>
    if shouldNormalizeIdArrayKey key then
      some (.arr (items.map fun item => match item with
        | .str s => .str (normalizeIdText s)
        | item => item))
    else none
  | _ => none

mutual
def normalizeIdsDeep : Json → Json
  | .arr items => .arr (normalizeItems items)
  | .obj fields => .obj (normalizeFields fields)
  | v => v

def normalizeItems : List Json → List Json
  | [] => []
  | v :: items => normalizeIdsDeep v :: normalizeItems items

def normalizeFields : List (String × Json) → List (String × Json)
  | [] => []
  | (key, v) :: fields => (key, (normalizeIdField key v).getD (normalizeIdsDeep v)) :: normalizeFields fields
end

theorem get?_normalizeIdsDeep (v : Json) (key : String) :
    (normalizeIdsDeep v).get? key = (v.get? key).map fun x => (normalizeIdField key x).getD (normalizeIdsDeep x) := by
  cases v with
  | obj fields =>
    show (normalizeFields fields).lookup key = (fields.lookup key).map _
    induction fields with
    | nil => rfl
    | cons f fields ih =>
      obtain ⟨key', x⟩ := f
      rw [normalizeFields, List.lookup_cons, List.lookup_cons]
      by_cases hk : key = key'
      · subst key'; simp
      · rw [beq_false_of_ne hk]; exact ih
  | arr items => rfl
  | null => rfl
  | bool b => rfl
  | num n => rfl
  | frac f => rfl
  | str s => rfl

theorem normalizeIdText_encodeMmId (u : Uuid) : normalizeIdText (encodeMmId u) = u.hyphenated := by
  rw [normalizeIdText, normalizeEntityId_encodeMmId]; rfl

theorem get?_normalizeIdsDeep_id {v : Json} {key s : String} (hk : shouldNormalizeSingleIdKey key = true)
    (h : v.get? key = some (.str s)) : (normalizeIdsDeep v).get? key = some (.str (normalizeIdText s)) := by
  rw [get?_normalizeIdsDeep, h, Option.map_some, normalizeIdField, if_pos hk]; rfl

theorem get?_normalizeIdsDeep_text {v : Json} {key s : String} (hk : shouldNormalizeSingleIdKey key = false)
    (h : v.get? key = some (.str s)) : (normalizeIdsDeep v).get? key = some (.str s) := by
  have hk' : ¬ shouldNormalizeSingleIdKey key = true := by rw [hk]; exact Bool.false_ne_true
  rw [get?_normalizeIdsDeep, h, Option.map_some, normalizeIdField, if_neg hk']
  unfold normalizeIdsDeep; rfl

theorem get?_normalizeIdsDeep_none {v : Json} {key : String} (h : v.get? key = none) :
    (normalizeIdsDeep v).get? key = none := by
  rw [get?_normalizeIdsDeep, h]; rfl

structure Envelope where
  event : String
  channelId : Option String
  data : Json

structure Post where
  id : String
  channelId : Option String
  userId : Option String
  message : String
  rootPostId : Option String
  clientMsgId : Option String
  isPinned : Bool
  replyCount : Option Int

def isObject : Json → Bool
  | .obj _ | .arr _ => true
  | _ => false

/-- The operand of `??`: neither absent nor null. -/
def given (key : String) (v : Json) : Option Json := (v.get? key).filter (· ≠ .null)

def entityId (v : Option Json) : Option String := (v.bind Json.asStr).bind normalizeEntityId

def normalizeWsEnvelope (raw : Json) : Envelope :=
  let channelOf (v : Json) : Option String := ((v.get? "channel_id").bind Json.asStr).map normalizeIdText
  { event := ((raw.get? "event").bind Json.asStr).getD ""
    channelId := (channelOf raw).or ((raw.get? "broadcast").bind channelOf)
    data := normalizeIdsDeep ((raw.get? "data").getD .null) }

def extractWsPostPayload (data : Json) : Option Json :=
  if isObject data then
    match data.get? "post" with
    | some (.str text) => (Json.parse text).filter isObject
    | some post => if isObject post then some post else none
    | none => some data
  else none

def normalizeWsPost (data : Json) (envelopeChannelId : Option String) : Option Post :=
  (extractWsPostPayload data).bind fun rawPost =>
    ((rawPost.get? "id").bind Json.asStr).map fun _ =>
      let post := normalizeIdsDeep rawPost
      let text (key : String) : Option String := (given key post).bind Json.asStr
      { id := ((entityId (post.get? "id")).or (text "id")).getD ""
        channelId := (entityId (post.get? "channel_id")).or ((envelopeChannelId.bind normalizeEntityId).or
          ((text "channel_id").or envelopeChannelId))
        userId := (entityId (post.get? "user_id")).or (text "user_id")
        message := (text "message").getD ""
        rootPostId := (entityId ((given "root_post_id" post).or (given "root_id" post))).or
          ((text "root_post_id").or (text "root_id"))
        clientMsgId := ((given "client_msg_id" post).or (given "pending_post_id" post)).bind Json.asStr
        isPinned := ((post.get? "is_pinned").bind Json.asBool).getD false
        replyCount := (post.get? "reply_count").bind (Json.asInt 64) }

/-! ### The stores -/

structure Message where
  id : String
  channelId : String
  userId : Option String
  content : String
  threadCount : Int
  rootId : Option String
  isPinned : Bool
  clientMsgId : Option String
deriving DecidableEq

-- an absent channel becomes the key "undefined" of the record
def postToMessage (post : Post) : Message where
  id := post.id
  channelId := post.channelId.getD "undefined"
  userId := post.userId
  content := post.message
  threadCount := post.replyCount.getD 0
  rootId := post.rootPostId.filter (· ≠ "")
  isPinned := post.isPinned
  clientMsgId := post.clientMsgId

structure State where
  messagesByChannel : Assoc String (List Message)
  repliesByThread : Assoc String (List Message)
  channelUnreads : Assoc String Int
  channelMentions : Assoc String Int
  currentChannelId : Option String
  username : Option String

def SameMessage (message m : Message) : Prop :=
  m.id = message.id ∨ (m.clientMsgId ≠ none ∧ m.clientMsgId ≠ some "" ∧ m.clientMsgId = message.clientMsgId)

instance (message m : Message) : Decidable (SameMessage message m) :=
  inferInstanceAs (Decidable (_ ∨ _ ∧ _ ∧ _))

/-- Put `message` in the place of the first held version of it, or at the end. -/
def upsert (message : Message) : List Message → List Message
  | [] => [message]
  | m :: ms => if SameMessage message m then message :: ms else m :: upsert message ms

def updateFirst (id : String) (f : Message → Message) : List Message → List Message
  | [] => []
  | m :: ms => if m.id = id then f m :: ms else m :: updateFirst id f ms

def handleNewMessage (s : State) (post : Post) : State :=
  let message := postToMessage post
  let s := match message.rootId with
    | some rootId =>
      let replies := (s.repliesByThread.lookup rootId).getD []
      let remove := List.eraseP fun m => SameMessage message m
      { s with
        repliesByThread := s.repliesByThread.insert rootId (upsert message replies)
        messagesByChannel := Assoc.modify message.channelId remove s.messagesByChannel }
    | none =>
      let messages := (s.messagesByChannel.lookup message.channelId).getD []
      { s with messagesByChannel := s.messagesByChannel.insert message.channelId (upsert message messages) }
  if s.currentChannelId ≠ some message.channelId ∧
      (s.username.any fun name => decide (('@' :: name.toList) <:+: message.content.toList)) = true then
    let mentions := (s.channelMentions.lookup message.channelId).getD 0
    { s with channelMentions := s.channelMentions.insert message.channelId (mentions + 1) }
  else s

-- a field of another type than the store's counts as absent
def handleMessageUpdate (s : State) (data : Json) : State :=
  match (data.get? "id").bind Json.asStr with
  | some id =>
    if id = "" then s
    else
      let edit (m : Message) : Message :=
        { m with
          content := ((data.get? "message").bind Json.asStr).getD m.content
          isPinned := ((data.get? "is_pinned").bind Json.asBool).getD m.isPinned }
      let inc := ((data.get? "reply_count_inc").bind (Json.asInt 64)).getD 0
      let count (m : Message) : Message :=
        { m with threadCount := ((data.get? "reply_count").bind (Json.asInt 64)).getD m.threadCount + inc }
      { s with
        messagesByChannel := Assoc.mapValues (updateFirst id (count ∘ edit)) s.messagesByChannel
        repliesByThread := Assoc.mapValues (updateFirst id edit) s.repliesByThread }
  | none => s

def handleMessageDelete (s : State) (messageId : String) : State :=
  { s with
    messagesByChannel := Assoc.mapValues (·.eraseP fun m => m.id = messageId) s.messagesByChannel
    repliesByThread := Assoc.mapValues (·.eraseP fun m => m.id = messageId) s.repliesByThread }

def handleUnreadUpdate (s : State) (channelId : String) (unreadCount : Int) : State :=
  { s with channelUnreads := s.channelUnreads.insert channelId unreadCount }

def getChannelUnreadCount (s : State) (channelId : String) : Int := (s.channelUnreads.lookup channelId).getD 0

/-! ### Websocket messages -/

def handleMessage (s : State) (envelope : Envelope) : State :=
  match envelope.event with
  | "posted" | "message_created" | "post_created" | "message_posted" | "thread_reply_created" =>
    match normalizeWsPost envelope.data envelope.channelId with
    | some post => handleNewMessage s post
    | none => s
  | "message_updated" | "post_edited" | "thread_reply_updated" =>
    if isObject envelope.data ∧ (envelope.data.get? "id").isSome then handleMessageUpdate s envelope.data else s
  | "message_deleted" | "post_deleted" | "thread_reply_deleted" =>
    if isObject envelope.data then
      match ((given "post_id" envelope.data).or (given "id" envelope.data)).bind Json.asStr with
      | some postId => if postId = "" then s else handleMessageDelete s postId
      | none => s
    else s
  | "unread_counts_updated" =>
    match (envelope.data.get? "channel_id").bind Json.asStr, (envelope.data.get? "unread_count").bind (Json.asInt 64) with
    | some channelId, some unreadCount => handleUnreadUpdate s channelId unreadCount
    | _, _ => s
  | _ => s

/-- A text that does not parse is logged and dropped. -/
def onmessage (s : State) (text : String) : State :=
  match Json.parse text with
  | some raw => handleMessage s (normalizeWsEnvelope raw)
  | none => s

/-- An envelope on its way through a v4 socket. The number of the message is not read. -/
def receive (codecs : Codecs) (s : State) (env : WsEnvelope) : State :=
  match mapEnvelopeToMm codecs env with
  | some m => onmessage s m.toJson.render
  | none => s

theorem receive_of_none {codecs : Codecs} {env : WsEnvelope} (h : mapEnvelopeToMm codecs env = none) (s : State) :
    receive codecs s env = s := by
  rw [receive, h]

theorem receive_of_mapEvent {codecs : Codecs} {env : WsEnvelope} {event : String} {data : Json}
    (h : mapEvent codecs env = some (event, data)) (s : State) :
    ∃ channelId, receive codecs s env = handleMessage s ⟨event, channelId, normalizeIdsDeep data⟩ := by
  have hmap : mapEnvelopeToMm codecs env = some ⟨none, event, data, mapBroadcast env.broadcast⟩ := by
    rw [mapEnvelopeToMm, h]; rfl
  refine ⟨(normalizeWsEnvelope (WebSocketMessage.toJson ⟨none, event, data, mapBroadcast env.broadcast⟩)).channelId, ?_⟩
  rw [receive, hmap]
  show onmessage s (Json.render _) = _
  rw [onmessage, Json.parse_render]
  rfl

end Client

end Rustchat
