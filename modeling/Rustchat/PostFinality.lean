import Rustchat.Posts
import Rustchat.Lib.Run

/-!
# Deleted posts (`api/posts.rs`, `api/v4/posts.rs`, `api/v4/channels/posts.rs`)

The native handlers look a post up among those that are not deleted. The v4 handlers, and `create_post` for
the root of a reply, look among all posts: nothing happens to a deleted post exactly as long as they are
not asked for one (`PostState.final_iff_spares`).
-/

namespace Rustchat

/-- `UPDATE posts SET is_pinned WHERE id`, where given also `AND channel_id`. -/
structure PinWrite where
  id : Uuid
  channelId : Option Uuid
  isPinned : Bool

def PinWrite.Hits (w : PinWrite) (post : Post) : Prop := ∀ c ∈ w.channelId, c = post.channelId

instance (w : PinWrite) (post : Post) : Decidable (w.Hits post) :=
  decidable_of_iff (w.channelId.all (· = post.channelId)) (by simp [PinWrite.Hits, Option.all_eq_true])

/-- The tables with the role column of the member rows, and what was broadcast. -/
structure PostState where
  db : PostDb
  roles : Uuid × Uuid → String
  log : List WsEnvelope

namespace PostState

def writePin (s : PostState) (w : PinWrite) : PostState :=
  { s with db := { s.db with
    posts := Assoc.modify w.id (fun post => if w.Hits post then { post with isPinned := w.isPinned } else post) s.db.posts } }

/-- The native handlers; `channelManage` answers for the permission `CHANNEL_MANAGE`. -/
def setPinned (s : PostState) (auth : AuthUser) (channelManage : Bool) (id : Uuid) (isPinned : Bool) (refusal : String) :
    Except AppError (PinWrite × List WsEnvelope) :=
  (okOr ((s.db.posts.lookup id).filter fun post => post.deletedAt = none) (.notFound "Post not found")).bind fun post =>
  (ensure ((post.channelId, auth.userId) ∈ s.db.members) (.forbidden "Not a member of this channel")).bind fun _ =>
  (ensure (s.roles (post.channelId, auth.userId) = "admin" ∨ channelManage = true) (.forbidden refusal)).bind fun _ =>
    .ok (⟨id, none, isPinned⟩, [channelEvent .messageUpdated (.obj [("id", .str id.hyphenated),
      ("channel_id", .str post.channelId.hyphenated), ("is_pinned", .bool isPinned)]) post.channelId])

def pinPost (s : PostState) (auth : AuthUser) (channelManage : Bool) (id : Uuid) :
    Except AppError (PinWrite × List WsEnvelope) :=
  s.setPinned auth channelManage id true "Only admins can pin posts"

def unpinPost (s : PostState) (auth : AuthUser) (channelManage : Bool) (id : Uuid) :
    Except AppError (PinWrite × List WsEnvelope) :=
  s.setPinned auth channelManage id false "Only admins can unpin posts"

variable (codecs : Codecs)

/-- The handlers of `api/v4/posts.rs`. -/
def setPinnedV4 (s : PostState) (userId : Uuid) (postId : String) (isPinned : Bool) :
    Except AppError (PinWrite × List WsEnvelope) :=
  (okOr (parseMmOrUuid codecs.parseUuid postId) (.badRequest "Invalid post_id")).bind fun id =>
  (okOr (s.db.posts.lookup id) .database).bind fun post =>
  (ensure ((post.channelId, userId) ∈ s.db.members) (.forbidden "Not a member of this channel")).bind fun _ =>
    .ok (⟨id, none, isPinned⟩, [])

def pinPostV4 (s : PostState) (userId : Uuid) (postId : String) :
    Except AppError (PinWrite × List WsEnvelope) :=
  s.setPinnedV4 codecs userId postId true

def unpinPostV4 (s : PostState) (userId : Uuid) (postId : String) :
    Except AppError (PinWrite × List WsEnvelope) :=
  s.setPinnedV4 codecs userId postId false

/-- The handlers of `api/v4/channels/posts.rs`. -/
def setPinnedInChannel (s : PostState) (userId : Uuid) (channelId postId : String) (isPinned : Bool) :
    Except AppError (PinWrite × List WsEnvelope) :=
  (okOr (parseMmOrUuid codecs.parseUuid channelId) (.badRequest "Invalid channel_id")).bind fun channel =>
  (okOr (parseMmOrUuid codecs.parseUuid postId) (.badRequest "Invalid post_id")).bind fun id =>
  (ensure ((channel, userId) ∈ s.db.members) (.forbidden "Not a member of this channel")).bind fun _ =>
    .ok (⟨id, some channel, isPinned⟩, [])

def pinPostInChannel (s : PostState) (userId : Uuid) (channelId postId : String) :
    Except AppError (PinWrite × List WsEnvelope) :=
  s.setPinnedInChannel codecs userId channelId postId true

def unpinPostInChannel (s : PostState) (userId : Uuid) (channelId postId : String) :
    Except AppError (PinWrite × List WsEnvelope) :=
  s.setPinnedInChannel codecs userId channelId postId false

def MayPinV4 (s : PostState) (userId : Uuid) (postId : String) (w : PinWrite) : Prop :=
  parseMmOrUuid codecs.parseUuid postId = some w.id ∧ w.channelId = none ∧
    ∃ post, s.db.posts.lookup w.id = some post ∧ (post.channelId, userId) ∈ s.db.members

def MayPinInChannel (s : PostState) (userId : Uuid) (channelId postId : String) (w : PinWrite) : Prop :=
  parseMmOrUuid codecs.parseUuid postId = some w.id ∧
    ∃ channel, parseMmOrUuid codecs.parseUuid channelId = some channel ∧ w.channelId = some channel ∧
      (channel, userId) ∈ s.db.members

end PostState

inductive PinRequest where
  | pinPost (auth : AuthUser) (channelManage : Bool) (id : Uuid)
  | unpinPost (auth : AuthUser) (channelManage : Bool) (id : Uuid)
  | pinPostV4 (userId : Uuid) (postId : String)
  | unpinPostV4 (userId : Uuid) (postId : String)
  | pinPostInChannel (userId : Uuid) (channelId postId : String)
  | unpinPostInChannel (userId : Uuid) (channelId postId : String)

namespace PinRequest

variable (codecs : Codecs)

def handle (s : PostState) : PinRequest → Except AppError (PinWrite × List WsEnvelope)
  | pinPost auth channelManage id => s.pinPost auth channelManage id
  | unpinPost auth channelManage id => s.unpinPost auth channelManage id
  | pinPostV4 userId postId => s.pinPostV4 codecs userId postId
  | unpinPostV4 userId postId => s.unpinPostV4 codecs userId postId
  | pinPostInChannel userId channelId postId => s.pinPostInChannel codecs userId channelId postId
  | unpinPostInChannel userId channelId postId => s.unpinPostInChannel codecs userId channelId postId

/-- The checks of the v4 handlers for a write. The native handlers refuse deleted posts. -/
def AcceptedV4 (s : PostState) (w : PinWrite) : PinRequest → Prop
  | pinPost _ _ _ | unpinPost _ _ _ => False
  | pinPostV4 userId postId => w.isPinned = true ∧ s.MayPinV4 codecs userId postId w
  | unpinPostV4 userId postId => w.isPinned = false ∧ s.MayPinV4 codecs userId postId w
  | pinPostInChannel userId channelId postId => w.isPinned = true ∧
    s.MayPinInChannel codecs userId channelId postId w
  | unpinPostInChannel userId channelId postId => w.isPinned = false ∧
    s.MayPinInChannel codecs userId channelId postId w

end PinRequest

/-! ### Runs -/

/-- Between the requests the rest of the server changes the other tables. -/
inductive PostOp where
  | post (request : PostRequest) (drawn : Drawn)
  | pin (request : PinRequest)
  | elsewhere (tables : PostDb) (roles : Uuid × Uuid → String)

def PostAction.subject : PostAction → Option Uuid
  | create _ rootPostId _ => rootPostId
  | edit id _ | delete id => some id

namespace PostState

variable (codecs : Codecs) (isAlphanumeric : Char → Bool)

def step (s : PostState) : PostOp → Option PostState
  | .post request drawn =>
    match request.handle codecs isAlphanumeric s.db drawn with
    | .ok (w, envs) => some { s with db := s.db.write w, log := s.log ++ envs }
    | .error _ => some s
  | .pin request =>
    match request.handle codecs s with
    | .ok (w, envs) => some { s.writePin w with log := s.log ++ envs }
    | .error _ => some s
  | .elsewhere tables roles =>
    some { s with db := { tables with posts := s.db.posts, nextSeq := s.db.nextSeq }, roles }

end PostState

def WsEnvelope.postId (env : WsEnvelope) : Option Json := (env.data.get? "id").or (env.data.get? "post_id")

def WsEnvelope.Changes (env : WsEnvelope) (id : Uuid) : Prop :=
  (env.event = EventType.messageUpdated.asStr ∨ env.event = EventType.messageDeleted.asStr) ∧
    env.postId = some (.str id.hyphenated)

namespace PostState

/-- What happened to a deleted post between two states: nothing. -/
structure Kept (t u : PostState) (id : Uuid) (post : Post) : Prop where
  row : ∃ post', u.db.posts.lookup id = some post' ∧ post'.message = post.message ∧ post'.isPinned = post.isPinned ∧
    post'.deletedAt = post.deletedAt
  events : ∃ envs, u.log = t.log ++ envs ∧ ∀ env ∈ envs, ¬ env.Changes id
  replies : ∀ r reply, u.db.posts.lookup r = some reply → reply.rootPostId = some id →
    ∃ reply', t.db.posts.lookup r = some reply' ∧ reply'.rootPostId = some id

def Final (t u : PostState) : Prop :=
  ∀ id post, t.db.posts.lookup id = some post → post.deletedAt ≠ none → Kept t u id post

variable (codecs) in
/-- The request is not an accepted edit or deletion of a deleted post or reply to one, nor an accepted pin
request that turns the flag of a deleted post. -/
def Spares (s : PostState) : PostOp → Prop
  | .post request drawn => request.Accepted codecs s.db drawn → ∀ action, request.action codecs = some action →
      ∀ id ∈ action.subject, ∀ post, s.db.posts.lookup id = some post → post.deletedAt = none
  | .pin request => ∀ w, request.AcceptedV4 codecs s w → ∀ post, s.db.posts.lookup w.id = some post →
      post.deletedAt ≠ none → w.Hits post → post.isPinned = w.isPinned
  | .elsewhere _ _ => True

variable {codecs isAlphanumeric} {s t u : PostState}

theorem Kept.refl {id : Uuid} {post : Post} (h : s.db.posts.lookup id = some post) : Kept s s id post :=
  ⟨⟨post, h, rfl, rfl, rfl⟩, ⟨[], (List.append_nil _).symm, nofun⟩,
    fun _ reply hr hroot => ⟨reply, hr, hroot⟩⟩

theorem Final.refl (s : PostState) : Final s s := fun _ _ h _ => Kept.refl h

theorem Final.trans (htu : Final s t) (hut : Final t u) : Final s u := by
  intro id post hl hd
  obtain ⟨⟨post', hl', hmessage, hpinned, hdeleted⟩, ⟨envs, hlog, henvs⟩, hreplies⟩ := htu id post hl hd
  obtain ⟨⟨post'', hl'', hmessage', hpinned', hdeleted'⟩, ⟨envs', hlog', henvs'⟩, hreplies'⟩ :=
    hut id post' hl' (by rw [hdeleted]; exact hd)
  refine ⟨⟨post'', hl'', hmessage'.trans hmessage, hpinned'.trans hpinned, hdeleted'.trans hdeleted⟩,
    ⟨envs ++ envs', by rw [hlog', hlog, List.append_assoc], ?_⟩, fun r reply hr hroot => ?_⟩
  · intro env henv
    rcases List.mem_append.1 henv with henv | henv
    · exact henvs env henv
    · exact henvs' env henv
  · obtain ⟨reply', hr', hroot'⟩ := hreplies' r reply hr hroot
    exact hreplies r reply' hr' hroot'

/-! ### Steps -/

theorem changes_channelEvent {event : EventType} {data : Json} {channelId id : Uuid} :
    (channelEvent event data channelId).Changes id ↔
      (event = .messageUpdated ∨ event = .messageDeleted) ∧
        (data.get? "id").or (data.get? "post_id") = some (.str id.hyphenated) := by
  have hevent : (channelEvent event data channelId).event = event.asStr := rfl
  have hpost : (channelEvent event data channelId).postId = (data.get? "id").or (data.get? "post_id") := rfl
  rw [WsEnvelope.Changes, hevent, hpost]
  refine and_congr_left' ?_
  cases event <;> decide

theorem changes_createdEvents {response : PostResponse} {id : Uuid} :
    (∃ env ∈ PostDb.createdEvents codecs response, env.Changes id) ↔ response.rootPostId = some id := by
  have hfirst : ¬ (channelEvent (if response.rootPostId.isSome then .threadReplyCreated else .messageCreated)
      response.toMm.toJson response.channelId).Changes id := by
    rw [changes_channelEvent]
    rintro ⟨h, -⟩
    split at h
    · exact h.elim nofun nofun
    · exact h.elim nofun nofun
  unfold PostDb.createdEvents
  cases hr : response.rootPostId with
  | none =>
    rw [hr] at hfirst
    refine iff_of_false ?_ nofun
    rintro ⟨env, henv, hc⟩
    rw [List.mem_singleton.1 henv] at hc
    exact hfirst hc
  | some r =>
    rw [hr] at hfirst
    have hsecond : ∀ data, data = Json.str r.hyphenated →
      (some data = some (.str id.hyphenated) ↔ some r = some id) := by
      rintro data rfl
      rw [Option.some.injEq, Json.str.injEq, Uuid.hyphenated_injective.eq_iff, Option.some.injEq]
    constructor
    · rintro ⟨env, henv, hc⟩
      rcases List.mem_cons.1 henv with rfl | henv
      · exact absurd hc hfirst
      · rw [List.mem_singleton.1 henv, changes_channelEvent] at hc
        exact (hsecond _ rfl).1 hc.2
    · intro he
      refine ⟨_, List.mem_cons_of_mem _ (List.mem_singleton_self _),
        changes_channelEvent.2 ⟨.inl rfl, (hsecond _ rfl).2 he⟩⟩

theorem changes_single {event : EventType} {data : Json} {channelId id id' : Uuid}
    (he : event = .messageUpdated ∨ event = .messageDeleted)
    (hd : (data.get? "id").or (data.get? "post_id") = some (.str id'.hyphenated)) :
    (∃ env ∈ [channelEvent event data channelId], env.Changes id) ↔ some id' = some id := by
  simp only [List.mem_singleton, exists_eq_left]
  rw [changes_channelEvent, hd, Option.some.injEq, Json.str.injEq, Uuid.hyphenated_injective.eq_iff,
    Option.some.injEq]
  exact and_iff_right he

theorem changes_updatePostMessage {db : PostDb} {drawn : Drawn} {w : PostWrite} {envs : List WsEnvelope}
    {actingUserId id id' : Uuid} {message : String}
    (h : db.updatePostMessage codecs actingUserId id message drawn = .ok (w, envs)) :
    (∃ env ∈ envs, env.Changes id') ↔ some id = some id' := by
  simp only [PostDb.updatePostMessage, bind_eq_ok, Except.ok.injEq, Prod.mk.injEq] at h
  obtain ⟨post, -, _, -, _, -, -, rfl⟩ := h
  exact changes_single (.inl rfl) rfl

theorem changes_create {db : PostDb} {drawn : Drawn} {w : PostWrite} {envs : List WsEnvelope} {channelId id : Uuid}
    {rootPostId : Option Uuid} {clientMsgId : Option String}
    (h : (PostAction.create channelId rootPostId clientMsgId).Effect codecs db drawn w envs) :
    (∃ env ∈ envs, env.Changes id) ↔ rootPostId = some id := by
  obtain ⟨-, -, userId, input, user, files, props, rfl, -, rfl⟩ := h
  exact changes_createdEvents

theorem changes_handle {request : PostRequest} {db : PostDb} {drawn : Drawn} {w : PostWrite} {envs : List WsEnvelope}
    {action : PostAction} {id : Uuid} (h : request.handle codecs isAlphanumeric db drawn = .ok (w, envs))
    (ha : request.action codecs = some action) :
    (∃ env ∈ envs, env.Changes id) ↔ action.subject = some id := by
  obtain ⟨action', ha', heffect⟩ := PostRequest.handle_effect h
  obtain rfl := Option.some.inj (ha.symm.trans ha')
  cases request with
  | createPost userId channelId input =>
    obtain rfl := Option.some.inj ha
    exact changes_create heffect
  | createPostHandler userId input =>
    obtain ⟨channelId, -, rfl⟩ := Option.map_eq_some_iff.1 ha
    exact changes_create heffect
  | updatePost auth id message =>
    simp only [PostRequest.handle, PostDb.updatePost, bind_eq_ok, Except.ok.injEq, Prod.mk.injEq] at h
    obtain ⟨post, -, _, -, _, -, -, rfl⟩ := h
    obtain rfl := Option.some.inj ha
    exact changes_single (.inl rfl) rfl
  | updatePostV4 userId postId bodyId message =>
    simp only [PostRequest.handle, PostDb.updatePostV4, bind_eq_ok, okOr_eq_ok] at h
    obtain ⟨id, hid, _, -, _, -, h⟩ := h
    rw [PostRequest.action, hid] at ha
    obtain rfl := Option.some.inj ha
    exact changes_updatePostMessage h
  | patchPost userId postId message =>
    simp only [PostRequest.handle, PostDb.patchPost, bind_eq_ok, okOr_eq_ok] at h
    obtain ⟨id, hid, h⟩ := h
    rw [PostRequest.action, hid] at ha
    obtain rfl := Option.some.inj ha
    exact changes_updatePostMessage h
  | deletePost auth id =>
    simp only [PostRequest.handle, PostDb.deletePost, bind_eq_ok, Except.ok.injEq, Prod.mk.injEq] at h
    obtain ⟨post, -, _, -, -, rfl⟩ := h
    obtain rfl := Option.some.inj ha
    exact changes_single (.inr rfl) rfl
  | deletePostV4 userId postId =>
    simp only [PostRequest.handle, PostDb.deletePostV4, bind_eq_ok, okOr_eq_ok, Except.ok.injEq,
      Prod.mk.injEq] at h
    obtain ⟨id, hid, post, -, _, -, -, rfl⟩ := h
    rw [PostRequest.action, hid] at ha
    obtain rfl := Option.some.inj ha
    exact changes_single (.inr rfl) rfl

theorem kept_modify {posts : Assoc Uuid Post} {r id : Uuid} {f : Post → Post} {post : Post}
    (hl : posts.lookup id = some post)
    (hf : r = id → (f post).message = post.message ∧ (f post).isPinned = post.isPinned ∧ (f post).deletedAt = post.deletedAt) :
    ∃ post', (Assoc.modify r f posts).lookup id = some post' ∧ post'.message = post.message ∧
      post'.isPinned = post.isPinned ∧ post'.deletedAt = post.deletedAt := by
  rw [Assoc.lookup_modify]
  by_cases he : id = r
  · subst r
    rw [if_pos rfl, hl]
    exact ⟨_, rfl, hf rfl⟩
  · rw [if_neg he]
    exact ⟨post, hl, rfl, rfl, rfl⟩

theorem rootPostId_modify {posts : Assoc Uuid Post} {r id : Uuid} {f : Post → Post}
    (hf : ∀ post, (f post).rootPostId = post.rootPostId) :
    ((Assoc.modify r f posts).lookup id).map Post.rootPostId = (posts.lookup id).map Post.rootPostId := by
  rw [Assoc.lookup_modify]
  by_cases he : id = r
  · subst r
    rw [if_pos rfl, Option.map_map]
    exact congrArg (Option.map · _) (funext hf)
  · rw [if_neg he]

theorem replies_of_map {posts posts' : Assoc Uuid Post} {r id : Uuid} {reply : Post}
    (h : (posts'.lookup r).map Post.rootPostId = (posts.lookup r).map Post.rootPostId)
    (hr : posts'.lookup r = some reply)
    (hroot : reply.rootPostId = some id) :
    ∃ reply', posts.lookup r = some reply' ∧ reply'.rootPostId = some id := by
  rw [hr, Option.map_some, hroot] at h
  exact Option.map_eq_some_iff.1 h.symm

/-- An accepted request leaves a deleted post that it is not about as it is, and it does not reply to it. -/
theorem write_other {db : PostDb} {drawn : Drawn} {w : PostWrite} {envs : List WsEnvelope} {action : PostAction}
    {id : Uuid} {post : Post} (h : action.Effect codecs db drawn w envs) (hid : action.subject ≠ some id)
    (hl : db.posts.lookup id = some post) :
    (∃ post', (db.write w).posts.lookup id = some post' ∧ post'.message = post.message ∧
      post'.isPinned = post.isPinned ∧ post'.deletedAt = post.deletedAt) ∧
    ∀ r reply, (db.write w).posts.lookup r = some reply → reply.rootPostId = some id →
      ∃ reply', db.posts.lookup r = some reply' ∧ reply'.rootPostId = some id := by
  cases action with
  | create channelId rootPostId clientMsgId =>
    obtain ⟨hfresh, -, userId, input, user, files, props, rfl, rfl, -⟩ := h
    have hne : id ≠ drawn.id := by
      rintro rfl
      exact hfresh (AList.lookup_isSome.1 (by rw [hl]; rfl))
    let row : Post := { db.newPost userId channelId input drawn with props := props }
    have hkept : (db.posts.insert drawn.id row).lookup id = some post :=
      by rw [Assoc.lookup_insert_eq, if_neg hne, hl]
    have hnew : ∀ r reply, (db.posts.insert drawn.id row).lookup r = some reply → reply.rootPostId = some id →
        ∃ reply', db.posts.lookup r = some reply' ∧ reply'.rootPostId = some id := by
      intro r reply hr hroot
      by_cases hrd : r = drawn.id
      · subst r
        rw [Assoc.lookup_insert_self] at hr
        obtain rfl := Option.some.inj hr
        exact absurd hroot hid
      · rw [Assoc.lookup_insert_eq, if_neg hrd] at hr
        exact ⟨reply, hr, hroot⟩
    have hw : (db.write (.insert drawn.id (db.newPost userId channelId input drawn) props)).posts =
        input.rootPostId.elim (db.posts.insert drawn.id row) fun r => Assoc.modify r (fun parent : Post =>
          { parent with replyCount := parent.replyCount + 1, lastReplyAt := some drawn.now.toInt })
          (db.posts.insert drawn.id row) := rfl
    rw [hw]
    cases hr : input.rootPostId with
    | none => exact ⟨⟨post, hkept, rfl, rfl, rfl⟩, hnew⟩
    | some r =>
      refine ⟨kept_modify hkept fun _ => ⟨rfl, rfl, rfl⟩, fun r' reply hr' hroot => ?_⟩
      obtain ⟨reply', hr', hroot'⟩ := replies_of_map (by exact rootPostId_modify fun _ => rfl) hr' hroot
      exact hnew r' reply' hr' hroot'
  | edit id' message =>
    obtain ⟨_, _, -, rfl, -⟩ := h
    exact ⟨kept_modify hl fun he => absurd (congrArg some he) hid,
      fun _ _ => replies_of_map (rootPostId_modify fun _ => rfl)⟩
  | delete id' =>
    obtain ⟨_, _, -, rfl, -⟩ := h
    exact ⟨kept_modify hl fun he => absurd (congrArg some he) hid,
      fun _ _ => replies_of_map (rootPostId_modify fun _ => rfl)⟩

theorem final_post_iff {request : PostRequest} {drawn : Drawn}
    (hs : s.step codecs isAlphanumeric (.post request drawn) = some t) :
    Final s t ↔ s.Spares codecs (.post request drawn) := by
  rw [step] at hs
  cases hres : request.handle codecs isAlphanumeric s.db drawn with
  | error e =>
    rw [hres] at hs
    obtain rfl := Option.some.inj hs
    refine iff_of_true (Final.refl s) fun hacc => ?_
    obtain ⟨res, hok⟩ := PostRequest.handle_ok_iff.2 hacc
    rw [hres] at hok
    cases hok
  | ok res =>
    obtain ⟨w, envs⟩ := res
    rw [hres] at hs
    obtain rfl := Option.some.inj hs
    obtain ⟨action, haction, heffect⟩ := PostRequest.handle_effect hres
    have hspares : s.Spares codecs (.post request drawn) ↔
        ∀ id ∈ action.subject, ∀ post, s.db.posts.lookup id = some post → post.deletedAt = none := by
      refine ⟨fun h => h (PostRequest.handle_ok_iff.1 ⟨_, hres⟩) action haction, fun h _ a ha => ?_⟩
      obtain rfl := Option.some.inj (haction.symm.trans ha)
      exact h
    rw [hspares]
    constructor
    · intro hfinal id hid post hl
      by_contra hd
      obtain ⟨envs', hlog, henvs⟩ := (hfinal id post hl hd).events
      obtain rfl := List.append_cancel_left hlog
      obtain ⟨env, henv, hc⟩ := (changes_handle hres haction).2 hid
      exact henvs env henv hc
    · intro h id post hl hd
      have hid : action.subject ≠ some id := fun he => hd (h id he post hl)
      obtain ⟨hrow, hreplies⟩ := write_other heffect hid hl
      exact ⟨hrow, ⟨envs, rfl, fun env henv hc => hid ((changes_handle hres haction).1 ⟨env, henv, hc⟩)⟩,
        hreplies⟩

/-- A pin request writes, and broadcasts nothing about a deleted post; only the v4 handlers write to one. -/
theorem pin_effect {request : PinRequest} {w : PinWrite} {envs : List WsEnvelope}
    (h : request.handle codecs s = .ok (w, envs)) :
    (request.AcceptedV4 codecs s w ∧ envs = []) ∨
      ∃ post data, s.db.posts.lookup w.id = some post ∧ post.deletedAt = none ∧
        envs = [channelEvent .messageUpdated data post.channelId] ∧
          data.get? "id" = some (.str w.id.hyphenated) := by
  have hnative : ∀ {auth channelManage id isPinned refusal}, s.setPinned auth channelManage id isPinned refusal = .ok (w, envs) →
      ∃ post data, s.db.posts.lookup w.id = some post ∧ post.deletedAt = none ∧
        envs = [channelEvent .messageUpdated data post.channelId] ∧
          data.get? "id" = some (.str w.id.hyphenated) := by
    intro auth channelManage id isPinned refusal h
    simp only [setPinned, bind_eq_ok, okOr_eq_ok, Option.filter_eq_some_iff, decide_eq_true_eq, Except.ok.injEq,
      Prod.mk.injEq] at h
    obtain ⟨post, ⟨hl, hlive⟩, _, -, _, -, rfl, rfl⟩ := h
    exact ⟨post, _, hl, hlive, rfl, rfl⟩
  have hv4 : ∀ {userId postId isPinned}, s.setPinnedV4 codecs userId postId isPinned = .ok (w, envs) →
      w.isPinned = isPinned ∧ s.MayPinV4 codecs userId postId w ∧ envs = [] := by
    intro userId postId isPinned h
    simp only [setPinnedV4, bind_eq_ok, okOr_eq_ok, ensure_eq_ok, Except.ok.injEq, Prod.mk.injEq] at h
    obtain ⟨id, hid, post, hl, _, hm, rfl, rfl⟩ := h
    exact ⟨rfl, ⟨hid, rfl, post, hl, hm⟩, rfl⟩
  have hchannel : ∀ {userId channelId postId isPinned},
      s.setPinnedInChannel codecs userId channelId postId isPinned = .ok (w, envs) →
        w.isPinned = isPinned ∧ s.MayPinInChannel codecs userId channelId postId w ∧ envs = [] := by
    intro userId channelId postId isPinned h
    simp only [setPinnedInChannel, bind_eq_ok, okOr_eq_ok, ensure_eq_ok, Except.ok.injEq, Prod.mk.injEq] at h
    obtain ⟨channel, hc, id, hid, _, hm, rfl, rfl⟩ := h
    exact ⟨rfl, ⟨hid, channel, hc, rfl, hm⟩, rfl⟩
  cases request with
  | pinPost auth channelManage id => exact .inr (hnative h)
  | unpinPost auth channelManage id => exact .inr (hnative h)
  | pinPostV4 userId postId =>
    obtain ⟨hp, hm, rfl⟩ := hv4 h
    exact .inl ⟨⟨hp, hm⟩, rfl⟩
  | unpinPostV4 userId postId =>
    obtain ⟨hp, hm, rfl⟩ := hv4 h
    exact .inl ⟨⟨hp, hm⟩, rfl⟩
  | pinPostInChannel userId channelId postId =>
    obtain ⟨hp, hm, rfl⟩ := hchannel h
    exact .inl ⟨⟨hp, hm⟩, rfl⟩
  | unpinPostInChannel userId channelId postId =>
    obtain ⟨hp, hm, rfl⟩ := hchannel h
    exact .inl ⟨⟨hp, hm⟩, rfl⟩

theorem handle_of_acceptedV4 {request : PinRequest} {w : PinWrite} (h : request.AcceptedV4 codecs s w) :
    request.handle codecs s = .ok (w, []) := by
  obtain ⟨id, channelId, isPinned⟩ := w
  have hv4 : ∀ {userId postId}, s.MayPinV4 codecs userId postId ⟨id, channelId, isPinned⟩ →
      s.setPinnedV4 codecs userId postId isPinned = .ok (⟨id, channelId, isPinned⟩, []) := by
    rintro userId postId ⟨hid, rfl, post, hl, hm⟩
    simp only [setPinnedV4, bind_eq_ok, okOr_eq_ok, ensure_eq_ok]
    exact ⟨id, hid, post, hl, (), hm, rfl⟩
  have hchannel : ∀ {userId channel postId}, s.MayPinInChannel codecs userId channel postId ⟨id, channelId, isPinned⟩ →
      s.setPinnedInChannel codecs userId channel postId isPinned = .ok (⟨id, channelId, isPinned⟩, []) := by
    rintro userId channel postId ⟨hid, c, hc, rfl, hm⟩
    simp only [setPinnedInChannel, bind_eq_ok, okOr_eq_ok, ensure_eq_ok]
    exact ⟨c, hc, id, hid, (), hm, rfl⟩
  cases request with
  | pinPost _ _ _ | unpinPost _ _ _ => exact h.elim
  | pinPostV4 userId postId =>
    obtain ⟨rfl, h⟩ := h
    exact hv4 h
  | unpinPostV4 userId postId =>
    obtain ⟨rfl, h⟩ := h
    exact hv4 h
  | pinPostInChannel userId channelId postId =>
    obtain ⟨rfl, h⟩ := h
    exact hchannel h
  | unpinPostInChannel userId channelId postId =>
    obtain ⟨rfl, h⟩ := h
    exact hchannel h

theorem final_pin_iff {request : PinRequest} (hs : s.step codecs isAlphanumeric (.pin request) = some t) :
    Final s t ↔ s.Spares codecs (.pin request) := by
  rw [step] at hs
  cases hres : request.handle codecs s with
  | error e =>
    rw [hres] at hs
    obtain rfl := Option.some.inj hs
    refine iff_of_true (Final.refl s) fun w hw => ?_
    rw [handle_of_acceptedV4 hw] at hres
    cases hres
  | ok res =>
    obtain ⟨w, envs⟩ := res
    rw [hres] at hs
    obtain rfl := Option.some.inj hs
    have hreplies : ∀ {id}, ∀ r reply, (s.writePin w).db.posts.lookup r = some reply → reply.rootPostId = some id →
        ∃ reply', s.db.posts.lookup r = some reply' ∧ reply'.rootPostId = some id := fun r reply =>
      replies_of_map (rootPostId_modify fun post => by split <;> rfl)
    rcases pin_effect hres with ⟨hw, rfl⟩ | ⟨post, data, hl, hlive, rfl, hdata⟩
    · constructor
      · intro hfinal w' hw' post hl hd hhits
        obtain rfl : w = w' := (Prod.mk.inj (Except.ok.inj (hres.symm.trans (handle_of_acceptedV4 hw')))).1
        obtain ⟨post', hl', -, hpinned, -⟩ := (hfinal w.id post hl hd).row
        change (Assoc.modify w.id _ s.db.posts).lookup w.id = some post' at hl'
        rw [Assoc.lookup_modify, if_pos rfl, hl, Option.map_some, if_pos hhits] at hl'
        obtain rfl := Option.some.inj hl'
        exact hpinned.symm
      · intro h id post hl hd
        refine ⟨kept_modify hl fun he => ?_, ⟨[], rfl, nofun⟩, hreplies⟩
        subst id
        split
        · next hhits => exact ⟨rfl, (h w hw post hl hd hhits).symm, rfl⟩
        · exact ⟨rfl, rfl, rfl⟩
    · refine iff_of_true (fun id post' hl' hd => ?_) fun w' hw' => ?_
      · have hne : w.id ≠ id := by
          rintro rfl
          obtain rfl := Option.some.inj (hl.symm.trans hl')
          exact hd hlive
        refine ⟨kept_modify hl' fun he => absurd he hne, ⟨_, rfl, fun env henv hc => ?_⟩, hreplies⟩
        obtain hid := (changes_single (.inl rfl) (by rw [hdata]; rfl)).1 ⟨env, henv, hc⟩
        exact hne (Option.some.inj hid)
      · obtain ⟨rfl, henvs⟩ := Prod.mk.inj (Except.ok.inj (hres.symm.trans (handle_of_acceptedV4 hw')))
        cases henvs

theorem final_step_iff {op : PostOp} (hs : s.step codecs isAlphanumeric op = some t) :
    Final s t ↔ s.Spares codecs op := by
  cases op with
  | post request drawn => exact final_post_iff hs
  | pin request => exact final_pin_iff hs
  | elsewhere tables roles =>
    obtain rfl := Option.some.inj hs
    exact iff_of_true (fun id post hl _ => ⟨⟨post, hl, rfl, rfl, rfl⟩, ⟨[], (List.append_nil _).symm, nofun⟩,
      fun _ reply hr hroot => ⟨reply, hr, hroot⟩⟩) trivial

theorem exists_step (s : PostState) (op : PostOp) : ∃ t, s.step codecs isAlphanumeric op = some t := by
  cases op with
  | post request drawn =>
    rw [step]
    split
    · exact ⟨_, rfl⟩
    · exact ⟨_, rfl⟩
  | pin request =>
    rw [step]
    split
    · exact ⟨_, rfl⟩
    · exact ⟨_, rfl⟩
  | elsewhere tables roles => exact ⟨_, rfl⟩

/-- In a run nothing happens to a post after its deletion if and only if every request spares the deleted posts. -/
theorem final_iff_spares (codecs : Codecs) (isAlphanumeric : Char → Bool) (s : PostState) (ops : List PostOp) :
    Run.AllSpans (step codecs isAlphanumeric) Final s ops ↔
      Run.AllSteps (step codecs isAlphanumeric) (Spares codecs) s ops := by
  obtain ⟨t, hrun⟩ := Run.exists_exec_of_enabled exists_step s ops
  exact Run.allSpans_iff_allSteps Final.refl (fun _ _ _ => Final.trans) (fun _ _ _ => final_step_iff) hrun

/-- User `2` deletes its post `7` and edits it afterwards with a v4 request. -/
theorem edited_after_deletion :
    let codecs : Codecs := ⟨fun s => [5, 2, 7].find? fun u => u.hyphenated = s,
      fun s => if s = "1970-01-01T00:00:00Z" then some 0 else none, fun _ => "1970-01-01T00:00:00Z", id⟩
    let post : Post := ⟨5, 2, none, "a", .obj [], [], false, 0, none, none, 0, none, 0⟩
    let db : PostDb := ⟨AList.insert 7 post ∅, AList.insert (5, 2) () ∅, AList.insert 2 ⟨"member", "ann", none⟩ ∅,
      [("member", "post.create")], ∅, none, 1⟩
    let s : PostState := ⟨db, fun _ => "member", []⟩
    ¬ Run.AllSpans (step codecs Char.isAlphanum) Final s
      [.post (.deletePost ⟨2, false⟩ 7) ⟨8, 1, 1⟩,
        .post (.patchPost 2 (7 : Uuid).hyphenated "b") ⟨9, 2, 2⟩] := by
  intro codecs post db s h
  have hedit : Final _ _ := h [.post (.deletePost ⟨2, false⟩ 7) ⟨8, 1, 1⟩]
    [.post (.patchPost 2 (7 : Uuid).hyphenated "b") ⟨9, 2, 2⟩] [] rfl _ _ rfl rfl
  obtain ⟨post', hl', hmessage, -, -⟩ := (hedit 7 { post with deletedAt := some 1 } rfl nofun).row
  have hedited : "b" = post'.message := congrArg Post.message (Option.some.inj hl')
  exact absurd (hedited.trans hmessage) (by decide)

end PostState

end Rustchat
