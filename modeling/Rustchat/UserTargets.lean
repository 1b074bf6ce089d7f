import Rustchat.Hub
import Rustchat.MmModels

/-!
# Broadcasts that name a user (`realtime/hub.rs`, `api/v4/posts.rs`)

`broadcastLocal` looks at the channel of a broadcast before the team and at the team before the user,
so a broadcast that names a user and a channel goes to the subscribers of the channel.
`WsHub.delivers_only_to_iff` says when the named user is nevertheless the only receiver. Ephemeral
posts and the set-unread events are such broadcasts. Of the two handlers the checks and the envelopes
are modelled; the rows they read are arguments, and what they write to the database is left out.
-/

namespace Rustchat

namespace WsHub

/-- Every connected subscriber that `b` reaches is `u`. -/
def Reaches (hub : WsHub) (b : WsBroadcast) (userIds : List Uuid) (u : Uuid) : Prop :=
  ∀ v ∈ userIds, b.excludeUserId ≠ some v → (∃ c, hub.IsConnected v c) → v = u

/-- The list that the hub takes from the broadcast before it looks at the user holds nobody else who is
connected. -/
def ReachesOnly (hub : WsHub) (b : WsBroadcast) (u : Uuid) : Prop :=
  match b.channelId, b.teamId with
  | some channelId, _ => hub.Reaches b (subscribers hub.channelSubscriptions channelId) u
  | none, some teamId => hub.Reaches b (subscribers hub.teamSubscriptions teamId) u
  | none, none => True

variable {hub : WsHub} {env : WsEnvelope} {b : WsBroadcast} {u v c : Uuid}

theorem delivers_only_to_iff (h : hub.Ok) (hb : env.broadcast = some b) (hu : b.userId = some u) :
    (∀ d ∈ hub.broadcastLocal env, d.userId = u) ↔ hub.ReachesOnly b u := by
  have hall : (∀ d ∈ hub.broadcastLocal env, d.userId = u) ↔
      ∀ v, (∃ c, hub.IsConnected v c) → hub.Addressed (some b) v → v = u := by
    rw [← hb]
    constructor
    · intro h' v hc ha
      obtain ⟨d, hd, rfl⟩ := (exists_delivery_iff h).2 ⟨hc, ha⟩
      exact h' d hd
    · intro h' d hd
      obtain ⟨hc, ha⟩ := (exists_delivery_iff h).1 ⟨d, hd, rfl⟩
      exact h' _ hc ha
  rw [hall]
  rcases b with ⟨channelId, teamId, userId, exclude⟩
  cases channelId with
  | some ch => exact ⟨fun h v hv he hc => h v hc ⟨hv, he⟩, fun h v hc ha => h v ha.1 ha.2 hc⟩
  | none =>
    cases teamId with
    | some t => exact ⟨fun h v hv he hc => h v hc ⟨hv, he⟩, fun h v hc ha => h v ha.1 ha.2 hc⟩
    | none =>
      have hu' : userId = some u := hu
      subst hu'
      exact ⟨fun _ => trivial, fun _ v _ ha => ha⟩

end WsHub

/-! ### The handlers -/

structure CreatePostRequest where
  channelId : String
  message : String
  rootId : String
  fileIds : List String
  props : Json
  pendingPostId : String

structure EphemeralPostRequest where
  userId : String
  post : CreatePostRequest

/-- `post_id` and `now` are the fresh id and the time the handler draws. -/
def createEphemeralPost (parseStr : String → Option Uuid) (authUserId : Uuid) (input : EphemeralPostRequest)
    (postId : Uuid) (now : Int) : Except AppError (MmPost × WsEnvelope) :=
  match parseMmOrUuid parseStr input.userId with
  | none => .error (.validation "Invalid user_id")
  | some targetUserId =>
    if targetUserId ≠ authUserId ∧ input.userId ≠ "me" then
      .error (.forbidden "Cannot send ephemeral post to others")
    else
      match parseMmOrUuid parseStr input.post.channelId with
      | none => .error (.validation "Invalid channel_id")
      | some channelId =>
        let ephemeralPost : MmPost := {
          id := encodeMmId postId
          createAt := now
          updateAt := now
          deleteAt := 0
          editAt := 0
          userId := encodeMmId authUserId
          channelId := input.post.channelId
          rootId := input.post.rootId
          originalId := ""
          message := input.post.message
          postType := "ephemeral"
          props := input.post.props
          hashtags := ""
          fileIds := input.post.fileIds
          pendingPostId := input.post.pendingPostId
          metadata := none }
        .ok (ephemeralPost,
          (WsEnvelope.new .ephemeralMessage ephemeralPost.toJson (some channelId)).withBroadcast
            ⟨some channelId, none, some authUserId, none⟩)

/-- The post that is to be unread, as the first query of the handler finds it. -/
structure UnreadPostRow where
  channelId : Uuid
  teamId : Uuid
  rootPostId : Option Uuid
  -- milliseconds
  createdAt : Int

structure ChannelUnreadComputation where
  totalMsgCount : Int
  totalMsgCountRoot : Int
  unreadMsgCount : Int
  unreadMsgCountRoot : Int
  mentionCount : Int
  mentionCountRoot : Int
  urgentMentionCount : Int

/-- What the handler reads: rows, and the switches of the configuration. -/
structure UnreadReads where
  post : Option UnreadPostRow
  isMember : Bool
  crtEnabledForUser : Bool
  stats : ChannelUnreadComputation
  -- the text of the thread snapshot, if the user follows the thread
  thread : Option Json
  threadAutoFollow : Bool
  postUnreadWsEnabled : Bool

def resolveUserId (parseStr : String → Option Uuid) (authUserId : Uuid) (canManageUsers : Bool)
    (userId : String) : Except AppError Uuid :=
  if userId = "me" then .ok authUserId
  else
    match parseMmOrUuid parseStr userId with
    | none => .error (.badRequest "Invalid user ID")
    | some id =>
      if id = authUserId ∨ canManageUsers = true then .ok id
      else .error (.forbidden "Cannot access another user's categories")

/-- The event for clients without collapsed threads of a user who has them enabled. -/
def threadUpdatedEnvelope (teamId userId : Uuid) (thread : Json) : WsEnvelope :=
  (WsEnvelope.new .threadUpdated (.obj [("thread", .str thread.render)]) none).withBroadcast
    ⟨none, some teamId, some userId, none⟩

def postUnreadEnvelope (channelId teamId userId postId : Uuid) (payload : ChannelUnreadAt) : WsEnvelope :=
  (WsEnvelope.new .postUnread (.obj [
      ("team_id", .str payload.teamId), ("user_id", .str payload.userId),
      ("channel_id", .str payload.channelId), ("msg_count", .num payload.msgCount),
      ("msg_count_root", .num payload.msgCountRoot), ("mention_count", .num payload.mentionCount),
      ("mention_count_root", .num payload.mentionCountRoot),
      ("urgent_mention_count", .num payload.urgentMentionCount),
      ("last_viewed_at", .num payload.lastViewedAt), ("post_id", .str (encodeMmId postId))])
    (some channelId)).withBroadcast
    ⟨some channelId, some teamId, some userId, none⟩

def setPostUnread (parseStr : String → Option Uuid) (authUserId : Uuid) (canManageUsers : Bool)
    (userIdPath postIdPath : String) (collapsedThreadsSupported : Bool) (db : UnreadReads) :
    Except AppError (ChannelUnreadAt × List WsEnvelope) :=
  match resolveUserId parseStr authUserId canManageUsers userIdPath with
  | .error _ => .error (.forbidden "Cannot access another user's posts")
  | .ok userId =>
    match parseMmOrUuid parseStr postIdPath with
    | none => .error (.badRequest "Invalid post_id")
    | some postId =>
      match db.post with
      | none => .error .database
      | some post =>
        if db.isMember = false then .error (.forbidden "Not a member of this channel")
        else
          let crtSupportedRequest := collapsedThreadsSupported && db.crtEnabledForUser
          let isReply := post.rootPostId.isSome
          let setUnreadCountRoot := !isReply || crtSupportedRequest
          let stats := if setUnreadCountRoot then db.stats
            else { db.stats with unreadMsgCountRoot := 0, mentionCountRoot := 0, urgentMentionCount := 0 }
          let threadUpdated :=
            if isReply && !crtSupportedRequest && db.threadAutoFollow && db.crtEnabledForUser &&
                !collapsedThreadsSupported then
              (db.thread.map (threadUpdatedEnvelope post.teamId userId)).toList
            else []
          let payload : ChannelUnreadAt := {
            teamId := encodeMmId post.teamId
            userId := encodeMmId userId
            channelId := encodeMmId post.channelId
            msgCount := max (stats.totalMsgCount - stats.unreadMsgCount) 0
            mentionCount := max stats.mentionCount 0
            mentionCountRoot := max stats.mentionCountRoot 0
            urgentMentionCount := max stats.urgentMentionCount 0
            msgCountRoot := max (stats.totalMsgCountRoot - stats.unreadMsgCountRoot) 0
            lastViewedAt := post.createdAt - 1 }
          let postUnread :=
            if db.postUnreadWsEnabled then
              [postUnreadEnvelope post.channelId post.teamId userId postId payload]
            else []
          .ok (payload, threadUpdated ++ postUnread)

/-! ### Who receives their envelopes -/

section Envelopes

variable {parseStr : String → Option Uuid} {authUserId : Uuid}

theorem createEphemeralPost_broadcast {input : EphemeralPostRequest} {postId : Uuid} {now : Int} {post : MmPost}
    {env : WsEnvelope} (h : createEphemeralPost parseStr authUserId input postId now = .ok (post, env)) :
    ∃ channelId, parseMmOrUuid parseStr input.post.channelId = some channelId ∧
      env.broadcast = some ⟨some channelId, none, some authUserId, none⟩ := by
  unfold createEphemeralPost at h
  split at h
  · cases h
  · split at h
    · cases h
    · split at h
      · cases h
      · next channelId hc =>
        simp only [Except.ok.injEq, Prod.mk.injEq] at h
        obtain ⟨-, rfl⟩ := h
        exact ⟨channelId, hc, rfl⟩

theorem setPostUnread_broadcast {canManageUsers collapsedThreadsSupported : Bool} {userIdPath postIdPath : String}
    {db : UnreadReads} {payload : ChannelUnreadAt} {envs : List WsEnvelope}
    (h : setPostUnread parseStr authUserId canManageUsers userIdPath postIdPath collapsedThreadsSupported db =
      .ok (payload, envs)) :
    ∃ userId post, resolveUserId parseStr authUserId canManageUsers userIdPath = .ok userId ∧
      db.post = some post ∧ ∀ env ∈ envs,
        (env.event = "thread_updated" ∧ env.broadcast = some ⟨none, some post.teamId, some userId, none⟩) ∨
        (env.event = "post_unread" ∧
          env.broadcast = some ⟨some post.channelId, some post.teamId, some userId, none⟩) := by
  unfold setPostUnread at h
  split at h
  · cases h
  · next userId hu =>
    split at h
    · cases h
    · split at h
      · cases h
      · next post hpost =>
        split at h
        · cases h
        · simp only [Except.ok.injEq, Prod.mk.injEq] at h
          obtain ⟨-, rfl⟩ := h
          refine ⟨userId, post, hu, hpost, fun env henv => ?_⟩
          rcases List.mem_append.1 henv with henv | henv
          · split at henv
            · obtain ⟨thread, -, rfl⟩ := Option.map_eq_some_iff.1 (Option.mem_toList.1 henv)
              exact .inl ⟨rfl, rfl⟩
            · cases henv
          · split at henv
            · rw [List.mem_singleton.1 henv]
              exact .inr ⟨rfl, rfl⟩
            · cases henv

end Envelopes

/-- After any run of the hub, a broadcast that names a user reaches nobody else exactly if the channel
or team it also names has no other connected subscriber. The ephemeral posts and the set-unread
events of the handlers name a channel or a team. -/
theorem userBroadcast_private_iff (ops : List HubOp) :
    (∀ env b u, env.broadcast = some b → b.userId = some u →
      ((∀ d ∈ (WsHub.run ops).broadcastLocal env, d.userId = u) ↔ (WsHub.run ops).ReachesOnly b u)) ∧
    (∀ parseStr authUserId input postId now post env,
      createEphemeralPost parseStr authUserId input postId now = .ok (post, env) →
      ∃ channelId, parseMmOrUuid parseStr input.post.channelId = some channelId ∧
        ((∀ d ∈ (WsHub.run ops).broadcastLocal env, d.userId = authUserId) ↔
          (WsHub.run ops).ReachesOnly ⟨some channelId, none, some authUserId, none⟩ authUserId)) ∧
    (∀ parseStr authUserId canManageUsers userIdPath postIdPath collapsedThreadsSupported db payload envs,
      setPostUnread parseStr authUserId canManageUsers userIdPath postIdPath collapsedThreadsSupported db =
        .ok (payload, envs) →
      ∃ userId post, resolveUserId parseStr authUserId canManageUsers userIdPath = .ok userId ∧
        db.post = some post ∧ ∀ env ∈ envs, ∃ b,
          (b = ⟨none, some post.teamId, some userId, none⟩ ∨
            b = ⟨some post.channelId, some post.teamId, some userId, none⟩) ∧
          env.broadcast = some b ∧
          ((∀ d ∈ (WsHub.run ops).broadcastLocal env, d.userId = userId) ↔
            (WsHub.run ops).ReachesOnly b userId)) := by
  have hok := WsHub.ok_run ops
  refine ⟨fun env b u hb hu => WsHub.delivers_only_to_iff hok hb hu, ?_, ?_⟩
  · intro parseStr authUserId input postId now post env h
    obtain ⟨channelId, hc, hb⟩ := createEphemeralPost_broadcast h
    exact ⟨channelId, hc, WsHub.delivers_only_to_iff hok hb rfl⟩
  · intro parseStr authUserId canManageUsers userIdPath postIdPath crt db payload envs h
    obtain ⟨userId, post, hu, hpost, henvs⟩ := setPostUnread_broadcast h
    refine ⟨userId, post, hu, hpost, fun env henv => ?_⟩
    rcases henvs env henv with ⟨-, hb⟩ | ⟨-, hb⟩
    · exact ⟨_, .inl rfl, hb, WsHub.delivers_only_to_iff hok hb rfl⟩
    · exact ⟨_, .inr rfl, hb, WsHub.delivers_only_to_iff hok hb rfl⟩

/-- User `0` sends itself an ephemeral post in a channel whose subscriber `1` is connected. -/
theorem ephemeralPost_reaches_subscriber :
    ∃ post env, createEphemeralPost (fun _ => none) 0
        ⟨"yyyyyyyyyyyyyyyyyyyyyyyyyy", ⟨"yyyyyyyyyyyyyyyyyyyyyyyyyr", "secret", "", [], .null, ""⟩⟩ 5 0 =
        .ok (post, env) ∧
      ∃ d ∈ (WsHub.run [.addConnection 0 "a" 10, .addConnection 1 "b" 11, .subscribeChannel 0 1,
          .subscribeChannel 1 1]).broadcastLocal env, d.userId = 1 := by
  refine ⟨_, _, rfl, ?_⟩
  refine (WsHub.exists_delivery_iff (WsHub.ok_run _)).2 ⟨⟨11, _, rfl, by decide⟩, ?_, by decide⟩
  decide

end Rustchat
