import Rustchat.Lib.Assoc
import Rustchat.UserTargets
import Rustchat.WireEvents

/-!
# Posts (`services/posts.rs`, `api/posts.rs`, `api/v4/posts.rs`)

The native and the v4 handlers that create, edit and delete posts. A handler reads its checks off the
tables, and answers with what it writes and what it broadcasts; the queries themselves succeed. Left out
are its response, the activities, pushes, webhooks and unread counters of a new post, and the members it
adds to a direct channel.
-/

namespace Rustchat

/-- `ok_or_else` -/
def okOr {α : Type*} (x : Option α) (e : AppError) : Except AppError α := x.elim (.error e) .ok

/-- Return the error unless `p` holds. -/
def ensure (p : Prop) [Decidable p] (e : AppError) : Except AppError Unit := if p then .ok () else .error e

theorem bind_eq_ok {α β : Type*} {x : Except AppError α} {f : α → Except AppError β} {b : β} :
    x.bind f = .ok b ↔ ∃ a, x = .ok a ∧ f a = .ok b := by
  cases x with
  | error e => simp [Except.bind]
  | ok a => simp [Except.bind]

theorem map_eq_ok {α β : Type*} {x : Except AppError α} {f : α → β} {b : β} :
    x.map f = .ok b ↔ ∃ a, x = .ok a ∧ f a = b := by
  cases x with
  | error e => exact ⟨fun h => (nomatch h), fun ⟨_, h, _⟩ => (nomatch h)⟩
  | ok a => exact ⟨fun h => ⟨a, rfl, Except.ok.inj h⟩, fun ⟨_, ha, hb⟩ => by rw [Except.ok.inj ha, ← hb]; rfl⟩

theorem okOr_eq_ok {α : Type*} {x : Option α} {e : AppError} {a : α} : okOr x e = .ok a ↔ x = some a := by
  cases x with
  | none => simp [okOr]
  | some b => simp [okOr]

theorem ensure_eq_ok {p : Prop} [Decidable p] {e : AppError} {u : Unit} : ensure p e = .ok u ↔ p := by
  unfold ensure
  split <;> simp_all

structure Post where
  channelId : Uuid
  userId : Uuid
  rootPostId : Option Uuid
  message : String
  props : Json
  fileIds : List Uuid
  isPinned : Bool
  createdAt : Int
  editedAt : Option Int
  deletedAt : Option Int
  replyCount : Int
  lastReplyAt : Option Int
  seq : Int

structure FileInfo where
  name : String
  mimeType : String
  size : Int
  width : Option Int
  height : Option Int
  hasThumbnail : Bool

structure PostUser where
  role : String
  username : String
  -- as `normalize_avatar_url` leaves it
  avatarUrl : Option String

/-- A member row is known by its channel and its user, the other rows by their ids. -/
structure PostDb where
  posts : Assoc Uuid Post
  members : Assoc (Uuid × Uuid) Unit
  users : Assoc Uuid PostUser
  rolePermissions : List (String × String)
  files : Assoc Uuid FileInfo
  postEditTimeLimitSeconds : Option Int
  nextSeq : Int

/-- What a request takes from outside: the id of a new row, `NOW()` of the database and `Utc::now()` of
the server, in microseconds. -/
structure Drawn where
  id : Uuid
  now : Int64
  utcNow : Int64

/-- The caller of a native handler, with the answer for the permission `ADMIN_FULL`. -/
structure AuthUser where
  userId : Uuid
  adminFull : Bool

def AuthUser.canAccessOwned (auth : AuthUser) (ownerId : Uuid) : Prop :=
  auth.userId = ownerId ∨ auth.adminFull = true

instance (auth : AuthUser) (ownerId : Uuid) : Decidable (auth.canAccessOwned ownerId) :=
  inferInstanceAs (Decidable (_ ∨ _))

structure CreatePost where
  message : String
  rootPostId : Option Uuid
  props : Option Json
  fileIds : List Uuid
  clientMsgId : Option String

inductive PostWrite where
  -- a reply counts at the post it answers; the props of the row are written again when the text mentions
  | insert (id : Uuid) (post : Post) (props : Json)
  | setMessage (id : Uuid) (message : String) (editedAt : Int)
  | setDeleted (id : Uuid) (deletedAt : Int)

namespace PostDb

def write (db : PostDb) : PostWrite → PostDb
  | .insert id post props =>
    let posts := db.posts.insert id { post with props := props }
    let count (parent : Post) : Post :=
      { parent with replyCount := parent.replyCount + 1, lastReplyAt := some post.createdAt }
    { db with
      posts := post.rootPostId.elim posts fun r => Assoc.modify r count posts
      nextSeq := db.nextSeq + 1 }
  | .setMessage id message editedAt =>
    { db with posts := Assoc.modify id (fun post => { post with message, editedAt := some editedAt }) db.posts }
  | .setDeleted id deletedAt =>
    { db with posts := Assoc.modify id (fun post => { post with deletedAt := some deletedAt }) db.posts }

def ensurePermission (db : PostDb) (userId : Uuid) (permission : String) : Except AppError PostUser :=
  (okOr (db.users.lookup userId) .database).bind fun user =>
    (ensure ((user.role, permission) ∈ db.rolePermissions) (.forbidden "Insufficient permissions")).map fun _ => user

def loadPostEditTimeLimitSeconds (db : PostDb) : Int := db.postEditTimeLimitSeconds.getD (-1)

def ensureEditable (db : PostDb) (post : Post) (message : String) (utcNow : Int64) : Except AppError Unit :=
  let limit := db.loadPostEditTimeLimitSeconds
  let postAgeSeconds := (utcNow.toInt - post.createdAt).tdiv 1000000
  if message = post.message then .ok ()
  else if limit = 0 then .error (.badRequest "Message editing is disabled by server policy")
  else
    ensure (¬ (0 < limit ∧ limit ≤ postAgeSeconds))
      (.badRequest ("Message edit window expired after " ++ toString limit ++ " seconds"))

/-- `populate_files` -/
def filesOf (db : PostDb) (fileIds : List Uuid) : List FileUploadResponse :=
  fileIds.filterMap fun id => (db.files.lookup id).map fun f =>
    let url := "/api/v4/files/" ++ encodeMmId id
    { id := id
      name := f.name
      mimeType := f.mimeType
      size := f.size
      width := f.width.getD 0
      height := f.height.getD 0
      url := url
      thumbnailUrl := if f.hasThumbnail then some (url ++ "/thumbnail") else none }

end PostDb

/-- The Unicode property `White_Space`. -/
def isWhitespace (c : Char) : Bool :=
  let n := c.toNat
  decide (9 ≤ n ∧ n ≤ 13 ∨ 0x2000 ≤ n ∧ n ≤ 0x200A) || [0x20, 0x85, 0xA0, 0x1680, 0x2028, 0x2029, 0x202F,
    0x205F, 0x3000].contains n

/-- The words behind an `@`, without what is not alphanumeric at their ends. -/
def mentionsOf (isAlphanumeric : Char → Bool) (message : String) : List String :=
  let trim := List.dropWhile fun c => !isAlphanumeric c
  (message.toList.splitOnP isWhitespace).filterMap fun word => match word with
    | '@' :: c :: rest => some (String.ofList (trim (trim (c :: rest)).reverse).reverse)
    | _ => none

def propsWithMentions (mentions : List String) (props : Json) : Json :=
  if mentions = [] then props
  else
    let fields := match props with
      | .obj fields => fields
      | _ => []
    .obj (Json.insertField "mentions" (.arr (mentions.map .str)) fields)

def Post.toResponse (id : Uuid) (post : Post) (user : Option PostUser) : PostResponse where
  id := id
  channelId := post.channelId
  userId := post.userId
  rootPostId := post.rootPostId
  message := post.message
  props := post.props
  fileIds := post.fileIds
  isPinned := post.isPinned
  createdAt := post.createdAt
  editedAt := post.editedAt
  deletedAt := post.deletedAt
  replyCount := post.replyCount
  lastReplyAt := post.lastReplyAt
  username := user.map PostUser.username
  avatarUrl := user.bind PostUser.avatarUrl
  files := []
  reactions := []
  isSaved := false
  clientMsgId := none
  seq := post.seq

def Post.toCreatedResponse (id : Uuid) (post : Post) (user : PostUser) (files : List FileUploadResponse)
    (clientMsgId : Option String) : PostResponse :=
  { post.toResponse id (some user) with files := files, clientMsgId := clientMsgId }

def channelEvent (event : EventType) (data : Json) (channelId : Uuid) : WsEnvelope :=
  (WsEnvelope.new event data (some channelId)).withBroadcast ⟨some channelId, none, none, none⟩

variable (codecs : Codecs) (isAlphanumeric : Char → Bool)

namespace PostDb

def newPost (db : PostDb) (userId channelId : Uuid) (input : CreatePost) (drawn : Drawn) : Post where
  channelId := channelId
  userId := userId
  rootPostId := input.rootPostId
  message := input.message
  props := input.props.getD (.obj [])
  fileIds := input.fileIds
  isPinned := false
  createdAt := drawn.now.toInt
  editedAt := none
  deletedAt := none
  replyCount := 0
  lastReplyAt := none
  seq := db.nextSeq

/-- The new message and, for a reply, the update of the post it answers. -/
def createdEvents (response : PostResponse) : List WsEnvelope :=
  let eventType : EventType := if response.rootPostId.isSome then .threadReplyCreated else .messageCreated
  let rootUpdate (r : Uuid) : WsEnvelope := channelEvent .messageUpdated (.obj [("id", .str r.hyphenated),
    ("reply_count_inc", .num 1), ("last_reply_at", codecs.ofTime response.createdAt)]) response.channelId
  channelEvent eventType response.toMm.toJson response.channelId :: (response.rootPostId.map rootUpdate).toList

/-- `services::posts::create_post` -/
def createPost (db : PostDb) (userId channelId : Uuid) (input : CreatePost) (clientMsgId : Option String)
    (drawn : Drawn) : Except AppError (PostWrite × List WsEnvelope) :=
  (db.ensurePermission userId "post.create").bind fun user =>
  (ensure ((channelId, userId) ∈ db.members) (.forbidden "Not a member of this channel")).bind fun _ =>
  (ensure (¬ (input.message.toList.all isWhitespace ∧ input.fileIds = []))
    (.validation "Message cannot be empty")).bind fun _ =>
  (ensure (input.rootPostId.all fun r => (db.posts.lookup r).any fun root => root.channelId = channelId)
    (.badRequest "Invalid root post")).bind fun _ =>
  (ensure (drawn.id ∉ db.posts) .database).bind fun _ =>
    let post := db.newPost userId channelId input drawn
    let response := post.toCreatedResponse drawn.id user (db.filesOf input.fileIds) clientMsgId
    .ok (.insert drawn.id post (propsWithMentions (mentionsOf isAlphanumeric input.message) post.props),
      createdEvents codecs response)

/-! #### `api/posts.rs` -/

def updatePost (db : PostDb) (auth : AuthUser) (id : Uuid) (message : String) (drawn : Drawn) :
    Except AppError (PostWrite × List WsEnvelope) :=
  (okOr ((db.posts.lookup id).filter fun post => post.deletedAt = none) (.notFound "Post not found")).bind fun post =>
  (ensure (auth.canAccessOwned post.userId) (.forbidden "Cannot edit this post")).bind fun _ =>
  (db.ensureEditable post message drawn.utcNow).bind fun _ =>
    .ok (.setMessage id message drawn.now.toInt,
      [channelEvent .messageUpdated (.obj [("id", .str id.hyphenated), ("channel_id", .str post.channelId.hyphenated),
        ("message", .str message), ("edited_at", codecs.ofTime drawn.now.toInt)]) post.channelId])

def deletedEvent (id channelId : Uuid) : WsEnvelope :=
  channelEvent .messageDeleted (.obj [("post_id", .str id.hyphenated), ("channel_id", .str channelId.hyphenated)])
    channelId

def deletePost (db : PostDb) (auth : AuthUser) (id : Uuid) (drawn : Drawn) :
    Except AppError (PostWrite × List WsEnvelope) :=
  (okOr ((db.posts.lookup id).filter fun post => post.deletedAt = none) (.notFound "Post not found")).bind fun post =>
  (ensure (auth.canAccessOwned post.userId) (.forbidden "Cannot delete this post")).bind fun _ =>
    .ok (.setDeleted id drawn.now.toInt, [deletedEvent id post.channelId])

/-! #### `api/v4/posts.rs` -/

def createPostHandler (db : PostDb) (userId : Uuid) (input : CreatePostRequest) (drawn : Drawn) :
    Except AppError (PostWrite × List WsEnvelope) :=
  let parse := parseMmOrUuid codecs.parseUuid
  (okOr (parse input.channelId) (.validation "Invalid channel_id")).bind fun channelId =>
  (if input.rootId = "" then .ok none
    else (okOr (parse input.rootId) (.validation "Invalid root_id")).map some).bind fun rootPostId =>
    let createPayload : CreatePost :=
      ⟨input.message, rootPostId, some input.props, input.fileIds.filterMap parse, none⟩
    let clientMsgId := if input.pendingPostId = "" then none else some input.pendingPostId
    db.createPost codecs isAlphanumeric userId channelId createPayload clientMsgId drawn

def updatePostMessage (db : PostDb) (actingUserId id : Uuid) (message : String) (drawn : Drawn) :
    Except AppError (PostWrite × List WsEnvelope) :=
  (okOr (db.posts.lookup id) (.notFound "Post not found")).bind fun post =>
  (ensure (post.userId = actingUserId) (.forbidden "Cannot edit others' posts")).bind fun _ =>
  (db.ensureEditable post message drawn.utcNow).bind fun _ =>
    let updated := { post with message, editedAt := some drawn.now.toInt }
    .ok (.setMessage id message drawn.now.toInt,
      [channelEvent .messageUpdated ((updated.toResponse id (db.users.lookup post.userId)).toJson codecs) post.channelId])

def updatePostV4 (db : PostDb) (userId : Uuid) (postId bodyId message : String) (drawn : Drawn) :
    Except AppError (PostWrite × List WsEnvelope) :=
  let parse := parseMmOrUuid codecs.parseUuid
  (okOr (parse postId) (.badRequest "Invalid post_id")).bind fun id =>
  (okOr (parse bodyId) (.badRequest "Invalid id")).bind fun bodyPostId =>
  (ensure (id = bodyPostId) (.badRequest "Invalid id")).bind fun _ =>
    db.updatePostMessage codecs userId id message drawn

def patchPost (db : PostDb) (userId : Uuid) (postId message : String) (drawn : Drawn) :
    Except AppError (PostWrite × List WsEnvelope) :=
  (okOr (parseMmOrUuid codecs.parseUuid postId) (.badRequest "Invalid post_id")).bind fun id =>
    db.updatePostMessage codecs userId id message drawn

def deletePostV4 (db : PostDb) (userId : Uuid) (postId : String) (drawn : Drawn) :
    Except AppError (PostWrite × List WsEnvelope) :=
  (okOr (parseMmOrUuid codecs.parseUuid postId) (.badRequest "Invalid post_id")).bind fun id =>
  (okOr (db.posts.lookup id) (.notFound "Post not found")).bind fun post =>
  (ensure (post.userId = userId) (.forbidden "Cannot delete others' posts")).bind fun _ =>
    .ok (.setDeleted id drawn.now.toInt, [deletedEvent id post.channelId])

end PostDb

inductive PostRequest where
  | createPost (userId channelId : Uuid) (input : CreatePost)
  | createPostHandler (userId : Uuid) (input : CreatePostRequest)
  | updatePost (auth : AuthUser) (id : Uuid) (message : String)
  | updatePostV4 (userId : Uuid) (postId bodyId message : String)
  | patchPost (userId : Uuid) (postId message : String)
  | deletePost (auth : AuthUser) (id : Uuid)
  | deletePostV4 (userId : Uuid) (postId : String)

inductive PostAction where
  | create (channelId : Uuid) (rootPostId : Option Uuid) (clientMsgId : Option String)
  | edit (id : Uuid) (message : String)
  | delete (id : Uuid)

namespace PostRequest

def handle (db : PostDb) (drawn : Drawn) : PostRequest → Except AppError (PostWrite × List WsEnvelope)
  | createPost userId channelId input =>
    db.createPost codecs isAlphanumeric userId channelId input input.clientMsgId drawn
  | createPostHandler userId input => db.createPostHandler codecs isAlphanumeric userId input drawn
  | updatePost auth id message => db.updatePost codecs auth id message drawn
  | updatePostV4 userId postId bodyId message => db.updatePostV4 codecs userId postId bodyId message drawn
  | patchPost userId postId message => db.patchPost codecs userId postId message drawn
  | deletePost auth id => db.deletePost auth id drawn
  | deletePostV4 userId postId => db.deletePostV4 codecs userId postId drawn

def action : PostRequest → Option PostAction
  | createPost _ channelId input => some (.create channelId input.rootPostId input.clientMsgId)
  | createPostHandler _ input =>
    let parse := parseMmOrUuid codecs.parseUuid
    (parse input.channelId).map fun channelId => .create channelId
      (if input.rootId = "" then none else parse input.rootId)
      (if input.pendingPostId = "" then none else some input.pendingPostId)
  | updatePost _ id message => some (.edit id message)
  | updatePostV4 _ postId _ message | patchPost _ postId message =>
    (parseMmOrUuid codecs.parseUuid postId).map fun id => .edit id message
  | deletePost _ id => some (.delete id)
  | deletePostV4 _ postId => (parseMmOrUuid codecs.parseUuid postId).map .delete

end PostRequest

/-! ### What an accepted request does -/

def PostAction.Effect (db : PostDb) (drawn : Drawn) (w : PostWrite) (envs : List WsEnvelope) : PostAction → Prop
  | create channelId rootPostId clientMsgId =>
    drawn.id ∉ db.posts ∧ (∀ r ∈ rootPostId, ∃ root, db.posts.lookup r = some root ∧ root.channelId = channelId) ∧
      ∃ userId input user files props, input.rootPostId = rootPostId ∧
        w = .insert drawn.id (db.newPost userId channelId input drawn) props ∧
        envs = PostDb.createdEvents codecs
          ((db.newPost userId channelId input drawn).toCreatedResponse drawn.id user files clientMsgId)
  | edit id message => ∃ post data, db.posts.lookup id = some post ∧ w = .setMessage id message drawn.now.toInt ∧
      envs = [channelEvent .messageUpdated data post.channelId]
  | delete id => ∃ post data, db.posts.lookup id = some post ∧ w = .setDeleted id drawn.now.toInt ∧
      envs = [channelEvent .messageDeleted data post.channelId]

variable {codecs isAlphanumeric} {db : PostDb} {drawn : Drawn} {w : PostWrite} {envs : List WsEnvelope}

theorem PostDb.createPost_effect {userId channelId : Uuid} {input : CreatePost} {clientMsgId : Option String}
    (h : db.createPost codecs isAlphanumeric userId channelId input clientMsgId drawn = .ok (w, envs)) :
    (PostAction.create channelId input.rootPostId clientMsgId).Effect codecs db drawn w envs := by
  simp only [PostDb.createPost, bind_eq_ok, ensure_eq_ok, Except.ok.injEq, Prod.mk.injEq] at h
  obtain ⟨user, -, _, -, _, -, _, hroot, _, hfresh, rfl, rfl⟩ := h
  refine ⟨hfresh, fun r hr => ?_, userId, input, user, _, _, rfl, rfl, rfl⟩
  rw [Option.mem_def.1 hr] at hroot
  simpa [Option.any_eq_true] using hroot

theorem PostDb.updatePostMessage_effect {actingUserId id : Uuid} {message : String}
    (h : db.updatePostMessage codecs actingUserId id message drawn = .ok (w, envs)) :
    (PostAction.edit id message).Effect codecs db drawn w envs := by
  simp only [PostDb.updatePostMessage, bind_eq_ok, okOr_eq_ok, Except.ok.injEq, Prod.mk.injEq] at h
  obtain ⟨post, hpost, _, -, _, -, rfl, rfl⟩ := h
  exact ⟨post, _, hpost, rfl, rfl⟩

theorem PostRequest.handle_effect {request : PostRequest}
    (h : request.handle codecs isAlphanumeric db drawn = .ok (w, envs)) :
    ∃ action, request.action codecs = some action ∧ action.Effect codecs db drawn w envs := by
  cases request with
  | createPost userId channelId input => exact ⟨_, rfl, PostDb.createPost_effect h⟩
  | createPostHandler userId input =>
    simp only [handle, PostDb.createPostHandler, bind_eq_ok, okOr_eq_ok] at h
    obtain ⟨channelId, hc, rootPostId, hr, h⟩ := h
    have hroot : (if input.rootId = "" then none else parseMmOrUuid codecs.parseUuid input.rootId) = rootPostId := by
      by_cases hid : input.rootId = ""
      · rw [if_pos hid] at hr ⊢
        exact Except.ok.inj hr
      · rw [if_neg hid] at hr ⊢
        cases hp : parseMmOrUuid codecs.parseUuid input.rootId with
        | none => rw [hp] at hr; cases hr
        | some r => rw [hp] at hr; exact Except.ok.inj hr
    refine ⟨_, by rw [action, hc]; rfl, ?_⟩
    rw [hroot]
    exact PostDb.createPost_effect h
  | updatePost auth id message =>
    simp only [handle, PostDb.updatePost, bind_eq_ok, okOr_eq_ok, Option.filter_eq_some_iff, Except.ok.injEq,
      Prod.mk.injEq] at h
    obtain ⟨post, ⟨hpost, -⟩, _, -, _, -, rfl, rfl⟩ := h
    exact ⟨_, rfl, post, _, hpost, rfl, rfl⟩
  | updatePostV4 userId postId bodyId message =>
    simp only [handle, PostDb.updatePostV4, bind_eq_ok, okOr_eq_ok] at h
    obtain ⟨id, hid, _, -, _, -, h⟩ := h
    exact ⟨_, by rw [action, hid]; rfl, PostDb.updatePostMessage_effect h⟩
  | patchPost userId postId message =>
    simp only [handle, PostDb.patchPost, bind_eq_ok, okOr_eq_ok] at h
    obtain ⟨id, hid, h⟩ := h
    exact ⟨_, by rw [action, hid]; rfl, PostDb.updatePostMessage_effect h⟩
  | deletePost auth id =>
    simp only [handle, PostDb.deletePost, bind_eq_ok, okOr_eq_ok, Option.filter_eq_some_iff, Except.ok.injEq,
      Prod.mk.injEq] at h
    obtain ⟨post, ⟨hpost, -⟩, _, -, rfl, rfl⟩ := h
    exact ⟨_, rfl, post, _, hpost, rfl, rfl⟩
  | deletePostV4 userId postId =>
    simp only [handle, PostDb.deletePostV4, bind_eq_ok, okOr_eq_ok, Except.ok.injEq, Prod.mk.injEq] at h
    obtain ⟨id, hid, post, hpost, _, -, rfl, rfl⟩ := h
    exact ⟨.delete id, by rw [action, hid]; rfl, post, _, hpost, rfl, rfl⟩

/-! ### What is accepted -/

/-- The checks of `create_post`. -/
def PostDb.MayCreate (db : PostDb) (drawn : Drawn) (userId channelId : Uuid) (input : CreatePost) : Prop :=
  (∃ user, db.users.lookup userId = some user ∧ (user.role, "post.create") ∈ db.rolePermissions) ∧
    (channelId, userId) ∈ db.members ∧ ¬ (input.message.toList.all isWhitespace ∧ input.fileIds = []) ∧
    (∀ r ∈ input.rootPostId, ∃ root, db.posts.lookup r = some root ∧ root.channelId = channelId) ∧
    drawn.id ∉ db.posts

/-- The checks of `update_post_message`. -/
def PostDb.MayUpdate (db : PostDb) (drawn : Drawn) (userId id : Uuid) (message : String) : Prop :=
  ∃ post, db.posts.lookup id = some post ∧ post.userId = userId ∧
    db.ensureEditable post message drawn.utcNow = .ok ()

variable (codecs) in
def PostRequest.Accepted (db : PostDb) (drawn : Drawn) : PostRequest → Prop
  | createPost userId channelId input => db.MayCreate drawn userId channelId input
  | createPostHandler userId input =>
    let parse := parseMmOrUuid codecs.parseUuid
    ∃ channelId rootPostId, parse input.channelId = some channelId ∧
      (input.rootId = "" ∧ rootPostId = none ∨ input.rootId ≠ "" ∧ rootPostId.isSome ∧ parse input.rootId = rootPostId) ∧
      db.MayCreate drawn userId channelId ⟨input.message, rootPostId, some input.props,
        input.fileIds.filterMap parse, none⟩
  | updatePost auth id message => ∃ post, db.posts.lookup id = some post ∧ post.deletedAt = none ∧
      auth.canAccessOwned post.userId ∧ db.ensureEditable post message drawn.utcNow = .ok ()
  | updatePostV4 userId postId bodyId message => ∃ id, parseMmOrUuid codecs.parseUuid postId = some id ∧
      parseMmOrUuid codecs.parseUuid bodyId = some id ∧ db.MayUpdate drawn userId id message
  | patchPost userId postId message =>
    ∃ id, parseMmOrUuid codecs.parseUuid postId = some id ∧ db.MayUpdate drawn userId id message
  | deletePost auth id =>
    ∃ post, db.posts.lookup id = some post ∧ post.deletedAt = none ∧ auth.canAccessOwned post.userId
  | deletePostV4 userId postId => ∃ id post, parseMmOrUuid codecs.parseUuid postId = some id ∧
      db.posts.lookup id = some post ∧ post.userId = userId

theorem PostDb.ensurePermission_eq_ok {userId : Uuid} {permission : String} {user : PostUser} :
    db.ensurePermission userId permission = .ok user ↔
      db.users.lookup userId = some user ∧ (user.role, permission) ∈ db.rolePermissions := by
  rw [PostDb.ensurePermission, bind_eq_ok]
  constructor
  · rintro ⟨u, hu, h⟩
    rw [okOr_eq_ok] at hu
    by_cases hp : (u.role, permission) ∈ db.rolePermissions
    · rw [ensure, if_pos hp] at h
      obtain rfl : u = user := Except.ok.inj h
      exact ⟨hu, hp⟩
    · rw [ensure, if_neg hp] at h
      cases h
  · rintro ⟨hu, hp⟩
    exact ⟨user, okOr_eq_ok.2 hu, by rw [ensure, if_pos hp]; rfl⟩

theorem PostDb.createPost_ok_iff {userId channelId : Uuid} {input : CreatePost} {clientMsgId : Option String} :
    (∃ res, db.createPost codecs isAlphanumeric userId channelId input clientMsgId drawn = .ok res) ↔
      db.MayCreate drawn userId channelId input := by
  have hroot : (input.rootPostId.all fun r => (db.posts.lookup r).any fun root => root.channelId = channelId) = true ↔
      ∀ r ∈ input.rootPostId, ∃ root, db.posts.lookup r = some root ∧ root.channelId = channelId := by
    simp [Option.all_eq_true, Option.any_eq_true]
  simp only [PostDb.createPost, PostDb.ensurePermission_eq_ok, bind_eq_ok, ensure_eq_ok, hroot,
    PostDb.MayCreate]
  constructor
  · rintro ⟨_, user, huser, _, hmember, _, hmessage, _, hr, _, hfresh, -⟩
    exact ⟨⟨user, huser⟩, hmember, hmessage, hr, hfresh⟩
  · rintro ⟨⟨user, huser⟩, hmember, hmessage, hr, hfresh⟩
    exact ⟨_, user, huser, (), hmember, (), hmessage, (), hr, (), hfresh, rfl⟩

theorem PostDb.updatePostMessage_ok_iff {actingUserId id : Uuid} {message : String} :
    (∃ res, db.updatePostMessage codecs actingUserId id message drawn = .ok res) ↔
      db.MayUpdate drawn actingUserId id message := by
  simp only [PostDb.updatePostMessage, bind_eq_ok, okOr_eq_ok, ensure_eq_ok, PostDb.MayUpdate]
  constructor
  · rintro ⟨_, post, hpost, _, howner, _, hedit, -⟩
    exact ⟨post, hpost, howner, hedit⟩
  · rintro ⟨post, hpost, howner, hedit⟩
    exact ⟨_, post, hpost, (), howner, (), hedit, rfl⟩

theorem PostRequest.handle_ok_iff {request : PostRequest} :
    (∃ res, request.handle codecs isAlphanumeric db drawn = .ok res) ↔ request.Accepted codecs db drawn := by
  cases request with
  | createPost userId channelId input => exact PostDb.createPost_ok_iff
  | createPostHandler userId input =>
    simp only [handle, PostDb.createPostHandler, bind_eq_ok, okOr_eq_ok, Accepted]
    constructor
    · rintro ⟨res, channelId, hc, rootPostId, hr, h⟩
      refine ⟨channelId, rootPostId, hc, ?_, PostDb.createPost_ok_iff.1 ⟨res, h⟩⟩
      by_cases hid : input.rootId = ""
      · rw [if_pos hid] at hr
        exact .inl ⟨hid, (Except.ok.inj hr).symm⟩
      · rw [if_neg hid] at hr
        cases hp : parseMmOrUuid codecs.parseUuid input.rootId with
        | none => rw [hp] at hr; cases hr
        | some r =>
          rw [hp] at hr
          obtain rfl := Except.ok.inj hr
          exact .inr ⟨hid, rfl, rfl⟩
    · rintro ⟨channelId, rootPostId, hc, hr, h⟩
      obtain ⟨res, h⟩ := PostDb.createPost_ok_iff.2 h
      refine ⟨res, channelId, hc, rootPostId, ?_, h⟩
      rcases hr with ⟨hid, rfl⟩ | ⟨hid, hsome, hr⟩
      · rw [if_pos hid]
      · obtain ⟨r, rfl⟩ := Option.isSome_iff_exists.1 hsome
        rw [if_neg hid, hr]
        rfl
  | updatePost auth id message =>
    simp only [handle, PostDb.updatePost, bind_eq_ok, okOr_eq_ok, ensure_eq_ok, Option.filter_eq_some_iff,
      decide_eq_true_eq, Accepted]
    constructor
    · rintro ⟨_, post, ⟨hpost, hlive⟩, _, howner, _, hedit, -⟩
      exact ⟨post, hpost, hlive, howner, hedit⟩
    · rintro ⟨post, hpost, hlive, howner, hedit⟩
      exact ⟨_, post, ⟨hpost, hlive⟩, (), howner, (), hedit, rfl⟩
  | updatePostV4 userId postId bodyId message =>
    simp only [handle, PostDb.updatePostV4, bind_eq_ok, okOr_eq_ok, ensure_eq_ok, Accepted]
    constructor
    · rintro ⟨res, id, hid, _, hbody, _, rfl, h⟩
      exact ⟨id, hid, hbody, PostDb.updatePostMessage_ok_iff.1 ⟨res, h⟩⟩
    · rintro ⟨id, hid, hbody, h⟩
      obtain ⟨res, h⟩ := PostDb.updatePostMessage_ok_iff.2 h
      exact ⟨res, id, hid, id, hbody, (), rfl, h⟩
  | patchPost userId postId message =>
    simp only [handle, PostDb.patchPost, bind_eq_ok, okOr_eq_ok, Accepted]
    constructor
    · rintro ⟨res, id, hid, h⟩
      exact ⟨id, hid, PostDb.updatePostMessage_ok_iff.1 ⟨res, h⟩⟩
    · rintro ⟨id, hid, h⟩
      obtain ⟨res, h⟩ := PostDb.updatePostMessage_ok_iff.2 h
      exact ⟨res, id, hid, h⟩
  | deletePost auth id =>
    simp only [handle, PostDb.deletePost, bind_eq_ok, okOr_eq_ok, ensure_eq_ok, Option.filter_eq_some_iff,
      decide_eq_true_eq, Accepted]
    constructor
    · rintro ⟨_, post, ⟨hpost, hlive⟩, _, howner, -⟩
      exact ⟨post, hpost, hlive, howner⟩
    · rintro ⟨post, hpost, hlive, howner⟩
      exact ⟨_, post, ⟨hpost, hlive⟩, (), howner, rfl⟩
  | deletePostV4 userId postId =>
    simp only [handle, PostDb.deletePostV4, bind_eq_ok, okOr_eq_ok, ensure_eq_ok, Accepted]
    constructor
    · rintro ⟨_, id, hid, post, hpost, _, howner, -⟩
      exact ⟨id, post, hid, hpost, howner⟩
    · rintro ⟨id, post, hid, hpost, howner⟩
      exact ⟨_, id, hid, post, hpost, (), howner, rfl⟩

end Rustchat
