import Rustchat.Events
import Rustchat.MmModels

/-!
# From envelopes to Mattermost messages (`api/v4/websocket.rs`, `models/post.rs`)

`mapEnvelopeToMm` decodes the payload of an envelope into the record its event expects and writes the
Mattermost message. A payload that does not decode, and an event that is not in the list, give nothing,
and the forward task of a v4 socket drops the envelope. Objects are read as serde reads them: an absent
optional field is as good as null, an unknown field is skipped.
-/

namespace Rustchat

/-- What the payloads rest on outside the repository (`uuid`, `chrono`), and its table of emoji names. -/
structure Codecs where
  -- `Uuid::parse_str`
  parseUuid : String → Option Uuid
  -- the texts of a `DateTime<Utc>`, kept in microseconds
  parseTime : String → Option Int
  showTime : Int → String
  -- `emoji_data::get_short_name_for_emoji`
  emojiShortName : String → String

def timestampMillis (t : Int) : Int := t / 1000

variable (codecs : Codecs)

namespace Codecs

def uuid (v : Json) : Option Uuid := v.asStr.bind codecs.parseUuid

def time (v : Json) : Option Int := v.asStr.bind codecs.parseTime

def ofTime (t : Int) : Json := .str (codecs.showTime t)

end Codecs

structure FileUploadResponse where
  id : Uuid
  name : String
  mimeType : String
  size : Int
  width : Int
  height : Int
  url : String
  thumbnailUrl : Option String

structure ReactionResponse where
  emoji : String
  count : Int
  users : List Uuid

-- the e-mail address is neither written nor read
structure PostResponse where
  id : Uuid
  channelId : Uuid
  userId : Uuid
  rootPostId : Option Uuid
  message : String
  props : Json
  fileIds : List Uuid
  isPinned : Bool
  createdAt : Int
  editedAt : Option Int
  deletedAt : Option Int
  replyCount : Int
  lastReplyAt : Option Int
  username : Option String
  avatarUrl : Option String
  files : List FileUploadResponse
  reactions : List ReactionResponse
  isSaved : Bool
  clientMsgId : Option String
  seq : Int

structure Reaction where
  postId : Uuid
  userId : Uuid
  emojiName : String
  createdAt : Int

structure TypingEvent where
  userId : Uuid
  displayName : String
  threadRootId : Option Uuid

def FileUploadResponse.ofJson (v : Json) : Option FileUploadResponse := do
  return {
    id := ← v.field "id" codecs.uuid
    name := ← v.field "name" Json.asStr
    mimeType := ← v.field "mime_type" Json.asStr
    size := ← v.field "size" (Json.asInt 64)
    width := ← v.defField "width" (Json.asInt 32) 0
    height := ← v.defField "height" (Json.asInt 32) 0
    url := ← v.field "url" Json.asStr
    thumbnailUrl := ← v.optField "thumbnail_url" Json.asStr }

def FileUploadResponse.toJson (f : FileUploadResponse) : Json :=
  .obj ([("id", .str f.id.hyphenated), ("name", .str f.name), ("mime_type", .str f.mimeType), ("size", .num f.size),
    ("width", .num f.width), ("height", .num f.height), ("url", .str f.url)] ++
    (f.thumbnailUrl.map fun u => ("thumbnail_url", Json.str u)).toList)

def ReactionResponse.ofJson (v : Json) : Option ReactionResponse := do
  return {
    emoji := ← v.field "emoji" Json.asStr
    count := ← v.field "count" (Json.asInt 32)
    users := ← v.field "users" (Json.asList codecs.uuid) }

def ReactionResponse.toJson (r : ReactionResponse) : Json :=
  .obj [("emoji", .str r.emoji), ("count", .num r.count),
    ("users", .arr (r.users.map fun u => .str u.hyphenated))]

def PostResponse.ofJson (v : Json) : Option PostResponse := do
  return {
    id := ← v.field "id" codecs.uuid
    channelId := ← v.field "channel_id" codecs.uuid
    userId := ← v.field "user_id" codecs.uuid
    rootPostId := ← v.optField "root_post_id" codecs.uuid
    message := ← v.field "message" Json.asStr
    props := ← v.get? "props"
    fileIds := ← v.field "file_ids" (Json.asList codecs.uuid)
    isPinned := ← v.field "is_pinned" Json.asBool
    createdAt := ← v.field "created_at" codecs.time
    editedAt := ← v.optField "edited_at" codecs.time
    deletedAt := ← v.optField "deleted_at" codecs.time
    replyCount := ← v.field "reply_count" (Json.asInt 64)
    lastReplyAt := ← v.optField "last_reply_at" codecs.time
    username := ← v.optField "username" Json.asStr
    avatarUrl := ← v.optField "avatar_url" Json.asStr
    files := ← v.field "files" (Json.asList (FileUploadResponse.ofJson codecs))
    reactions := ← v.field "reactions" (Json.asList (ReactionResponse.ofJson codecs))
    isSaved := ← v.field "is_saved" Json.asBool
    clientMsgId := ← v.optField "client_msg_id" Json.asStr
    seq := ← v.field "seq" (Json.asInt 64) }

def PostResponse.toJson (p : PostResponse) : Json :=
  .obj [("id", .str p.id.hyphenated), ("channel_id", .str p.channelId.hyphenated),
    ("user_id", .str p.userId.hyphenated), ("root_post_id", optUuidJson p.rootPostId),
    ("message", .str p.message), ("props", p.props), ("file_ids", .arr (p.fileIds.map fun u => .str u.hyphenated)),
    ("is_pinned", .bool p.isPinned), ("created_at", codecs.ofTime p.createdAt),
    ("edited_at", .ofOpt codecs.ofTime p.editedAt), ("deleted_at", .ofOpt codecs.ofTime p.deletedAt),
    ("reply_count", .num p.replyCount), ("last_reply_at", .ofOpt codecs.ofTime p.lastReplyAt),
    ("username", .ofOpt .str p.username), ("avatar_url", .ofOpt .str p.avatarUrl),
    ("files", .arr (p.files.map FileUploadResponse.toJson)),
    ("reactions", .arr (p.reactions.map ReactionResponse.toJson)), ("is_saved", .bool p.isSaved),
    ("client_msg_id", .ofOpt .str p.clientMsgId), ("seq", .num p.seq)]

def Reaction.ofJson (v : Json) : Option Reaction := do
  return {
    postId := ← v.field "post_id" codecs.uuid
    userId := ← v.field "user_id" codecs.uuid
    emojiName := ← v.field "emoji_name" Json.asStr
    createdAt := ← v.field "created_at" codecs.time }

def TypingEvent.ofJson (v : Json) : Option TypingEvent := do
  return {
    userId := ← v.field "user_id" codecs.uuid
    displayName := ← v.field "display_name" Json.asStr
    threadRootId := ← v.optField "thread_root_id" codecs.uuid }

def MmPost.ofJson (v : Json) : Option MmPost := do
  return {
    id := ← v.field "id" Json.asStr
    createAt := ← v.field "create_at" (Json.asInt 64)
    updateAt := ← v.field "update_at" (Json.asInt 64)
    deleteAt := ← v.field "delete_at" (Json.asInt 64)
    editAt := ← v.field "edit_at" (Json.asInt 64)
    userId := ← v.field "user_id" Json.asStr
    channelId := ← v.field "channel_id" Json.asStr
    rootId := ← v.field "root_id" Json.asStr
    originalId := ← v.field "original_id" Json.asStr
    message := ← v.field "message" Json.asStr
    postType := ← v.field "type" Json.asStr
    props := ← v.get? "props"
    hashtags := ← v.field "hashtags" Json.asStr
    fileIds := ← v.field "file_ids" (Json.asList Json.asStr)
    pendingPostId := ← v.field "pending_post_id" Json.asStr
    metadata := ← v.optField "metadata" some }

theorem PostResponse.ofJson_eq_none {v : Json} (h : v.get? "created_at" = none) :
    PostResponse.ofJson codecs v = none := by
  have hfield : v.field "created_at" codecs.time = none := by rw [Json.field, h]; rfl
  simp only [PostResponse.ofJson, hfield, Option.bind_eq_bind, Option.bind_none, Option.bind_fun_none]

theorem MmPost.ofJson_toJson {p : MmPost}
    (h : ∀ t ∈ [p.createAt, p.updateAt, p.deleteAt, p.editAt], -2 ^ 63 ≤ t ∧ t < 2 ^ 63)
    (hm : p.metadata ≠ some .null) : MmPost.ofJson p.toJson = some p := by
  have hint : ∀ t ∈ [p.createAt, p.updateAt, p.deleteAt, p.editAt], Json.asInt 64 (.num t) = some t :=
    fun t ht => if_pos (h t ht)
  simp only [List.forall_mem_cons, List.not_mem_nil, false_implies, implies_true, and_true] at hint
  obtain ⟨hcreate, hupdate, hdelete, hedit⟩ := hint
  have hfiles : Json.asList Json.asStr (.arr (p.fileIds.map .str)) = some p.fileIds :=
    Json.asList_map .str (fun _ => rfl) p.fileIds
  have hmeta : p.toJson.optField "metadata" some = some p.metadata := by
    rw [Json.optField, MmPost.get?_metadata]
    cases hv : p.metadata with
    | none => rfl
    | some v =>
      cases v with
      | null => exact absurd hv hm
      | _ => rfl
  simp [MmPost.ofJson, hmeta, Json.field, MmPost.get?_toJson, List.lookup_cons, hcreate, hupdate, hdelete, hedit, hfiles,
    Json.asStr]

/-! ### Mattermost posts (`mattermost_compat/mappers.rs`) -/

def optMmId (id : Option Uuid) : String := (id.map encodeMmId).getD ""

def postTypeFromProps (props : Json) : String := ((props.get? "type").bind Json.asStr).getD ""

def extension (name : String) : String :=
  if '.' ∈ name.toList then String.ofList (name.toList.reverse.takeWhile (· ≠ '.')).reverse else ""

def PostResponse.mmReactions (p : PostResponse) : Json :=
  .arr (p.reactions.map fun r => .obj [("user_id", .str (encodeMmId (r.users.head?.getD 0))),
    ("post_id", .str (encodeMmId p.id)), ("emoji_name", .str r.emoji),
    ("create_at", .num (timestampMillis p.createdAt))])

def PostResponse.mmFileInfo (p : PostResponse) (f : FileUploadResponse) : Json :=
  .obj [("id", .str (encodeMmId f.id)), ("user_id", .str ""), ("post_id", .str (encodeMmId p.id)),
    ("channel_id", .str (encodeMmId p.channelId)), ("create_at", .num (timestampMillis p.createdAt)),
    ("update_at", .num (timestampMillis p.createdAt)), ("delete_at", .num 0), ("name", .str f.name),
    ("extension", .str (extension f.name)), ("size", .num f.size), ("mime_type", .str f.mimeType),
    ("width", .num f.width), ("height", .num f.height), ("has_preview_image", .bool f.thumbnailUrl.isSome)]

def PostResponse.toMm (p : PostResponse) : MmPost where
  id := encodeMmId p.id
  createAt := timestampMillis p.createdAt
  updateAt := timestampMillis (p.editedAt.getD p.createdAt)
  deleteAt := (p.deletedAt.map timestampMillis).getD 0
  editAt := (p.editedAt.map timestampMillis).getD 0
  userId := encodeMmId p.userId
  channelId := encodeMmId p.channelId
  rootId := optMmId p.rootPostId
  originalId := ""
  message := p.message
  postType := postTypeFromProps p.props
  props := p.props
  hashtags := ""
  fileIds := p.fileIds.map encodeMmId
  pendingPostId := p.clientMsgId.getD ""
  metadata :=
    if p.files ≠ [] then
      some (.obj [("files", .arr (p.files.map p.mmFileInfo)), ("reactions", p.mmReactions)])
    else if p.reactions ≠ [] then some (.obj [("reactions", p.mmReactions)])
    else none

theorem PostResponse.toMm_metadata (p : PostResponse) : p.toMm.metadata ≠ some .null := by
  unfold toMm
  split_ifs <;> simp

/-! ### The mapping -/

def extractMmId (value : Option Json) : String :=
  optMmId ((value.bind Json.asStr).bind (parseMmOrUuid codecs.parseUuid))

/-- `str::parse::<i64>` -/
def parseI64 (s : String) : Option Int :=
  let digits (cs : List Char) : Option Int :=
    if cs ≠ [] ∧ cs.all Char.isDigit then some (Nat.ofDigitChars 10 cs 0) else none
  let n := match s.toList with
    | '-' :: cs => (digits cs).map fun n => -n
    | '+' :: cs => digits cs
    | cs => digits cs
  n.filter fun n => -2 ^ 63 ≤ n ∧ n < 2 ^ 63

def extractI64 (value : Option Json) : Int :=
  (value.bind fun v => (v.asInt 64).or (v.asStr.bind parseI64)).getD 0

def extractEmbeddedJson (value : Option Json) : Option String :=
  value.map fun v => v.asStr.getD v.render

def mapBroadcast : Option WsBroadcast → MmBroadcast
  | some b => ⟨none, optMmId b.userId, optMmId b.channelId, optMmId b.teamId⟩
  | none => ⟨none, "", "", ""⟩

def mmReaction (env : WsEnvelope) : Option Json :=
  (Reaction.ofJson codecs env.data).map fun r =>
    let reaction : Json := .obj [("user_id", .str (encodeMmId r.userId)), ("post_id", .str (encodeMmId r.postId)),
      ("emoji_name", .str (codecs.emojiShortName r.emojiName)), ("create_at", .num (timestampMillis r.createdAt)),
      ("update_at", .num (timestampMillis r.createdAt)), ("delete_at", .num 0),
      ("channel_id", .str (optMmId env.channelId)), ("remote_id", .str "")]
    .obj [("reaction", .str reaction.render)]

def mmPostText (env : WsEnvelope) : Option Json :=
  (PostResponse.ofJson codecs env.data).map fun p => .obj [("post", .str p.toMm.toJson.render)]

def mapEvent (env : WsEnvelope) : Option (String × Json) :=
  match env.event with
  | "posted" | "thread_reply_created" =>
    let post := ((PostResponse.ofJson codecs env.data).map PostResponse.toMm).or (MmPost.ofJson env.data)
    post.map fun mmPost => ("posted", .obj [("post", .str mmPost.toJson.render), ("channel_display_name", .str ""),
      ("channel_name", .str ""), ("channel_type", .str "O"), ("sender_name", .str mmPost.userId),
      ("team_id", .str "")])
  | "typing" | "typing_start" =>
    (TypingEvent.ofJson codecs env.data).map fun typing =>
      ("typing", .obj [("parent_id", .str (optMmId typing.threadRootId)), ("user_id", .str (encodeMmId typing.userId)),
        ("display_name", .str typing.displayName), ("thread_root_id", .str (optMmId typing.threadRootId))])
  | "stop_typing" | "typing_stop" =>
    (TypingEvent.ofJson codecs env.data).map fun typing =>
      ("stop_typing", .obj [("parent_id", .str (optMmId typing.threadRootId)),
        ("user_id", .str (encodeMmId typing.userId)), ("thread_root_id", .str (optMmId typing.threadRootId))])
  | "post_edited" | "thread_reply_updated" => (mmPostText codecs env).map (Prod.mk "post_edited")
  | "post_deleted" | "thread_reply_deleted" => (mmPostText codecs env).map (Prod.mk "post_deleted")
  | "reaction_added" => (mmReaction codecs env).map (Prod.mk "reaction_added")
  | "reaction_removed" => (mmReaction codecs env).map (Prod.mk "reaction_removed")
  | "user_updated" | "status_change" =>
    (env.data.field "status" Json.asStr).map fun status =>
      ("status_change", .obj [("user_id", .str (extractMmId codecs (env.data.get? "user_id"))), ("status", .str status),
        ("manual", .bool ((env.data.field "manual" Json.asBool).getD false)),
        ("last_activity_at", .num ((env.data.field "last_activity_at" (Json.asInt 64)).getD 0)),
        ("text", (env.data.get? "text").getD .null), ("emoji", (env.data.get? "emoji").getD .null),
        ("expires_at", (env.data.get? "expires_at").getD .null)])
  | "channel_viewed" =>
    some ("channel_viewed", .obj [("channel_id", .str (extractMmId codecs (env.data.get? "channel_id")))])
  | "post_unread" =>
    some ("post_unread", .obj [("channel_id", .str (extractMmId codecs (env.data.get? "channel_id"))),
      ("post_id", .str (extractMmId codecs (env.data.get? "post_id"))),
      ("msg_count", .num (extractI64 (env.data.get? "msg_count"))),
      ("msg_count_root", .num (extractI64 (env.data.get? "msg_count_root"))),
      ("mention_count", .num (extractI64 (env.data.get? "mention_count"))),
      ("mention_count_root", .num (extractI64 (env.data.get? "mention_count_root"))),
      ("urgent_mention_count", .num (extractI64 (env.data.get? "urgent_mention_count"))),
      ("last_viewed_at", .num (extractI64 (env.data.get? "last_viewed_at")))])
  | "thread_updated" => some ("thread_updated", env.data)
  | "user_added" =>
    some ("user_added", .obj [("user_id", .str (extractMmId codecs (env.data.get? "user_id"))),
      ("channel_id", .str (extractMmId codecs (env.data.get? "channel_id"))),
      ("team_id", .str (extractMmId codecs (env.data.get? "team_id")))])
  | "user_removed" =>
    some ("user_removed", .obj [("user_id", .str (extractMmId codecs (env.data.get? "user_id"))),
      ("remover_id", .str (extractMmId codecs (env.data.get? "remover_id")))])
  | "received_group" =>
    (extractEmbeddedJson (env.data.get? "group")).map fun g => ("received_group", .obj [("group", .str g)])
  | "group_member_add" =>
    (extractEmbeddedJson (env.data.get? "group_member")).map fun m =>
      ("group_member_add", .obj [("group_member", .str m)])
  | "group_member_deleted" =>
    (extractEmbeddedJson (env.data.get? "group_member")).map fun m =>
      ("group_member_deleted", .obj [("group_member", .str m)])
  | "received_group_associated_to_team" | "received_group_not_associated_to_team"
  | "received_group_associated_to_channel" | "received_group_not_associated_to_channel" =>
    some (env.event, .obj [("group_id", .str (extractMmId codecs (env.data.get? "group_id")))])
  | "first_admin_visit_marketplace_status_received" =>
    some ("first_admin_visit_marketplace_status_received", env.data)
  | event => if "custom_".toList.isPrefixOf event.toList then some (event, env.data) else none

-- the number is assigned when the message is queued
def mapEnvelopeToMm (env : WsEnvelope) : Option WebSocketMessage :=
  (mapEvent codecs env).map fun (event, data) => ⟨none, event, data, mapBroadcast env.broadcast⟩

end Rustchat
