import Rustchat.Client
import Rustchat.Hub
import Rustchat.Lib.Run
import Rustchat.Posts

/-!
# Messages of a channel at a connected client

What a v4 socket carries of a new message, an edit and a deletion to a web client, and what the client
makes of it. A new message arrives whole (`receive_created`). The mapping drops an edit or a deletion
whose payload is not a whole post, and puts a whole post under the key `post`, where the client does not
look for the id: neither changes the client (`receive_messageUpdated`, `receive_messageDeleted`). So the
client agrees with the server exactly until the first request that `LiveSync.Keeps` excludes
(`LiveSync.agrees_iff`).
-/

namespace Rustchat

namespace Client

def postOf (p : PostResponse) : Post where
  id := p.id.hyphenated
  channelId := some p.channelId.hyphenated
  userId := some p.userId.hyphenated
  message := p.message
  rootPostId := some ((p.rootPostId.map Uuid.hyphenated).getD "")
  clientMsgId := some (normalizeIdText (p.clientMsgId.getD ""))
  isPinned := false
  replyCount := none

theorem given_str {key s : String} {v : Json} (h : v.get? key = some (.str s)) :
    given key v = some (.str s) := by
  simp [given, h]

theorem given_none {key : String} {v : Json} (h : v.get? key = none) : given key v = none := by
  rw [given, h]; rfl

theorem entityId_hyphenated (u : Uuid) : entityId (some (.str u.hyphenated)) = some u.hyphenated := by
  simp only [entityId, Option.bind_some, Json.asStr, normalizeEntityId_hyphenated]

theorem normalizeWsPost_toMm (p : PostResponse) (data : Json) (c : Option String)
    (h : data.get? "post" = some (.str p.toMm.toJson.render)) (hobj : isObject data = true) :
    normalizeWsPost data c = some (postOf p) := by
  have hpay : extractWsPostPayload data = some p.toMm.toJson := by
    unfold extractWsPostPayload
    rw [if_pos hobj, h]
    show (Json.parse _).filter _ = _
    rw [Json.parse_render]; rfl
  have hraw : p.toMm.toJson.get? "id" = some (.str (encodeMmId p.id)) := MmPost.get?_toJson (by decide)
  have hid : (normalizeIdsDeep p.toMm.toJson).get? "id" = some (.str p.id.hyphenated) := by
    rw [← normalizeIdText_encodeMmId]
    exact get?_normalizeIdsDeep_id (by decide) hraw
  have hchannel : (normalizeIdsDeep p.toMm.toJson).get? "channel_id" = some (.str p.channelId.hyphenated) := by
    rw [← normalizeIdText_encodeMmId]
    exact get?_normalizeIdsDeep_id (by decide) (MmPost.get?_toJson (by decide))
  have huser : (normalizeIdsDeep p.toMm.toJson).get? "user_id" = some (.str p.userId.hyphenated) := by
    rw [← normalizeIdText_encodeMmId]
    exact get?_normalizeIdsDeep_id (by decide) (MmPost.get?_toJson (by decide))
  have hmessage : (normalizeIdsDeep p.toMm.toJson).get? "message" = some (.str p.message) :=
    get?_normalizeIdsDeep_text (by decide) (MmPost.get?_toJson (by decide))
  have hroot : (normalizeIdsDeep p.toMm.toJson).get? "root_id" =
      some (.str (normalizeIdText (optMmId p.rootPostId))) :=
    get?_normalizeIdsDeep_id (by decide) (MmPost.get?_toJson (by decide))
  have hpending : (normalizeIdsDeep p.toMm.toJson).get? "pending_post_id" =
      some (.str (normalizeIdText (p.clientMsgId.getD ""))) :=
    get?_normalizeIdsDeep_id (by decide) (MmPost.get?_toJson (by decide))
  have habsent : ∀ key ∈ ["root_post_id", "client_msg_id", "is_pinned", "reply_count"],
      (normalizeIdsDeep p.toMm.toJson).get? key = none := by
    intro key hk
    refine get?_normalizeIdsDeep_none ((MmPost.get?_toJson ?_).trans ?_)
    · revert key; decide
    · simp only [List.mem_cons, List.not_mem_nil, or_false] at hk
      rcases hk with rfl | rfl | rfl | rfl <;> rfl
  simp only [List.forall_mem_cons, List.not_mem_nil, false_implies, implies_true, and_true] at habsent
  obtain ⟨hrootPost, hclient, hpinned, hcount⟩ := habsent
  have hthread : (entityId (some (.str (normalizeIdText (optMmId p.rootPostId))))).or
      (some (normalizeIdText (optMmId p.rootPostId))) = some ((p.rootPostId.map Uuid.hyphenated).getD "") := by
    cases p.rootPostId with
    | none => rfl
    | some r =>
      show (entityId (some (.str (normalizeIdText (encodeMmId r))))).or _ = _
      rw [normalizeIdText_encodeMmId, entityId_hyphenated]; rfl
  unfold normalizeWsPost
  rw [hpay, Option.bind_some, hraw]
  simp only [hid, hchannel, huser, hpinned, hcount, given_str hmessage, given_str hroot,
    given_str hpending, given_none hrootPost, given_none hclient, Option.none_or, entityId_hyphenated,
    Option.some_or, Option.getD_some, Json.asStr, Option.bind_some, Option.map_some, Option.bind_none,
    Option.getD_none]
  rw [hthread]
  rfl

theorem receive_created {codecs : Codecs} (s : State) {event : EventType}
    (he : event = .messageCreated ∨ event = .threadReplyCreated) {p : PostResponse}
    (hp : ∀ t ∈ p.createdAt :: (p.editedAt.toList ++ p.deletedAt.toList), -2 ^ 63 ≤ t ∧ t < 2 ^ 63) :
    receive codecs s (channelEvent event p.toMm.toJson p.channelId) = handleNewMessage s (postOf p) := by
  have hrange : ∀ t ∈ [p.toMm.createAt, p.toMm.updateAt, p.toMm.deleteAt, p.toMm.editAt], -2 ^ 63 ≤ t ∧
    t < 2 ^ 63 := by
    unfold PostResponse.toMm timestampMillis
    cases he : p.editedAt <;> cases hd : p.deletedAt <;> simp [he, hd] at hp ⊢ <;> omega
  have hread : MmPost.ofJson p.toMm.toJson = some p.toMm := MmPost.ofJson_toJson hrange p.toMm_metadata
  have hnone : PostResponse.ofJson codecs p.toMm.toJson = none :=
    PostResponse.ofJson_eq_none codecs (MmPost.get?_toJson (by decide))
  have hmap : ∃ rest, mapEvent codecs (channelEvent event p.toMm.toJson p.channelId) =
      some ("posted", .obj (("post", .str p.toMm.toJson.render) :: rest)) := by
    have hbranch : mapEvent codecs (channelEvent event p.toMm.toJson p.channelId) =
        (((PostResponse.ofJson codecs p.toMm.toJson).map PostResponse.toMm).or (MmPost.ofJson p.toMm.toJson)).map
          fun mmPost => ("posted", .obj [("post", .str mmPost.toJson.render), ("channel_display_name", .str ""),
            ("channel_name", .str ""), ("channel_type", .str "O"), ("sender_name", .str mmPost.userId),
            ("team_id", .str "")]) := by
      rcases he with rfl | rfl <;> rfl
    rw [hbranch, hnone, hread]
    exact ⟨_, rfl⟩
  obtain ⟨rest, hmap⟩ := hmap
  obtain ⟨c, hc⟩ := receive_of_mapEvent hmap s
  have hpost : normalizeWsPost (normalizeIdsDeep (.obj (("post", .str p.toMm.toJson.render) :: rest))) c =
      some (postOf p) :=
    normalizeWsPost_toMm p _ c (get?_normalizeIdsDeep_text (by decide) rfl) (by rw [normalizeIdsDeep]; rfl)
  rw [hc, handleMessage]
  simp only [hpost]

theorem receive_postText {codecs : Codecs} {env : WsEnvelope} {e : String} {s : State}
    (hmap : mapEvent codecs env = (mmPostText codecs env).map (Prod.mk e))
    (hignore : ∀ c text, handleMessage s ⟨e, c, normalizeIdsDeep (.obj [("post", .str text)])⟩ = s) :
    receive codecs s env = s := by
  unfold mmPostText at hmap
  cases hp : PostResponse.ofJson codecs env.data with
  | none =>
    rw [hp] at hmap
    exact receive_of_none (by rw [mapEnvelopeToMm, hmap]; rfl) s
  | some p =>
    rw [hp] at hmap
    obtain ⟨c, hc⟩ := receive_of_mapEvent hmap s
    rw [hc, hignore]

theorem receive_messageUpdated {codecs : Codecs} (s : State) (data : Json) (channelId : Uuid) :
    receive codecs s (channelEvent .messageUpdated data channelId) = s := by
  refine receive_postText (e := "post_edited") rfl fun c text => ?_
  have hid : (normalizeIdsDeep (.obj [("post", .str text)])).get? "id" = none :=
    get?_normalizeIdsDeep_none rfl
  rw [handleMessage]
  simp [hid]

theorem receive_messageDeleted {codecs : Codecs} (s : State) (data : Json) (channelId : Uuid) :
    receive codecs s (channelEvent .messageDeleted data channelId) = s := by
  refine receive_postText (e := "post_deleted") rfl fun c text => ?_
  have habsent : ∀ key ∈ ["post_id",
    "id"], given key (normalizeIdsDeep (.obj [("post", .str text)])) = none := by
    intro key hk
    refine given_none (get?_normalizeIdsDeep_none ?_)
    simp only [List.mem_cons, List.not_mem_nil, or_false] at hk
    rcases hk with rfl | rfl <;> rfl
  rw [handleMessage]
  simp [habsent]

def State.messages (s : State) (channelId : Uuid) : List Message :=
  (s.messagesByChannel.lookup channelId.hyphenated).getD []

def messageOf (p : PostResponse) : Message where
  id := p.id.hyphenated
  channelId := p.channelId.hyphenated
  userId := some p.userId.hyphenated
  content := p.message
  threadCount := 0
  rootId := p.rootPostId.map Uuid.hyphenated
  isPinned := false
  clientMsgId := some (normalizeIdText (p.clientMsgId.getD ""))

theorem hyphenated_ne_empty (u : Uuid) : u.hyphenated ≠ "" := by
  intro h
  have hlen := u.length_hyphenated
  rw [h] at hlen
  cases hlen

theorem postToMessage_postOf (p : PostResponse) : postToMessage (postOf p) = messageOf p := by
  have hroot : (some ((p.rootPostId.map Uuid.hyphenated).getD "")).filter (· ≠ "") =
      p.rootPostId.map Uuid.hyphenated := by
    cases p.rootPostId with
    | none => simp
    | some r => simp [hyphenated_ne_empty]
  unfold postToMessage messageOf
  rw [← hroot]
  rfl

variable {s : State} {p : PostResponse} {channelId : Uuid}

theorem messages_handleNewMessage_root (h : p.rootPostId = none) :
    (handleNewMessage s (postOf p)).messages channelId =
      if channelId = p.channelId then upsert (messageOf p) (s.messages channelId) else s.messages channelId := by
  have hstore : (handleNewMessage s (postOf p)).messagesByChannel = s.messagesByChannel.insert p.channelId.hyphenated
      (upsert (messageOf p) (s.messages p.channelId)) := by
    have hroot : (messageOf p).rootId = none := by rw [messageOf, h]; rfl
    simp only [handleNewMessage, postToMessage_postOf, hroot]
    split <;> rfl
  unfold State.messages at hstore ⊢
  rw [hstore, Assoc.lookup_insert_eq]
  by_cases hc : channelId = p.channelId
  · rw [hc, if_pos rfl, if_pos rfl]; rfl
  · rw [if_neg fun he => hc (Uuid.hyphenated_injective he), if_neg hc]

theorem messages_handleNewMessage_reply {r : Uuid} (h : p.rootPostId = some r) :
    (handleNewMessage s (postOf p)).messages channelId =
      if channelId = p.channelId then (s.messages channelId).eraseP fun m => SameMessage (messageOf p) m
      else s.messages channelId := by
  have hstore : (handleNewMessage s (postOf p)).messagesByChannel =
      Assoc.modify p.channelId.hyphenated (·.eraseP fun m => SameMessage (messageOf p) m) s.messagesByChannel := by
    have hroot : (messageOf p).rootId = some r.hyphenated := by rw [messageOf, h]; rfl
    simp only [handleNewMessage, postToMessage_postOf, hroot]
    split <;> rfl
  unfold State.messages
  rw [hstore, Assoc.lookup_modify]
  by_cases hc : channelId = p.channelId
  · rw [hc, if_pos rfl, if_pos rfl]
    cases s.messagesByChannel.lookup p.channelId.hyphenated <;> rfl
  · rw [if_neg fun he => hc (Uuid.hyphenated_injective he), if_neg hc]

theorem upsert_eq_append {m : Message} {ms : List Message} (h : ∀ x ∈ ms, ¬ SameMessage m x) :
    upsert m ms = ms ++ [m] := by
  induction ms with
  | nil => rfl
  | cons x ms ih =>
    rw [upsert, if_neg (h x List.mem_cons_self), ih fun y hy => h y (List.mem_cons_of_mem x hy)]; rfl

theorem length_upsert {m x : Message} {ms : List Message} (hx : x ∈ ms) (h : SameMessage m x) :
    (upsert m ms).length = ms.length := by
  induction ms with
  | nil => cases hx
  | cons y ms ih =>
    rw [upsert]
    split
    · rfl
    · next hy =>
      rcases List.mem_cons.1 hx with rfl | hx
      · exact absurd h hy
      · rw [List.length_cons, List.length_cons, ih hx]

end Client

structure Shown where
  id : String
  content : String
  replyCount : Int
deriving DecidableEq

def Client.Message.shown (m : Client.Message) : Shown := ⟨m.id, m.content, m.threadCount⟩

def Post.shown (channelId id : Uuid) (post : Post) : Option Shown :=
  if post.channelId = channelId ∧ post.rootPostId = none ∧ post.deletedAt = none then
    some ⟨id.hyphenated, post.message, post.replyCount⟩
  else none

structure LiveSync where
  db : PostDb
  client : Client.State

namespace LiveSync

variable (codecs : Codecs) (isAlphanumeric : Char → Bool) (hub : WsHub) (me channelId : Uuid)

/-- The client receives the envelopes that are addressed to its user. -/
def deliver (client : Client.State) (env : WsEnvelope) : Client.State :=
  if hub.Addressed env.broadcast me then Client.receive codecs client env else client

def step (s : LiveSync) (request : PostRequest × Drawn) : Option LiveSync :=
  match request.1.handle codecs isAlphanumeric s.db request.2 with
  | .ok (w, envs) => some ⟨s.db.write w, envs.foldl (deliver codecs hub me) s.client⟩
  | .error _ => some s

/-- The messages that the client holds of the channel are its live root posts. -/
def Agrees (s : LiveSync) : Prop :=
  ((s.client.messages channelId).map Client.Message.shown).Perm (Assoc.views (Post.shown channelId) s.db.posts)

/-- The action leaves the live root posts of the channel as they are, or adds one that the client does not
take for a message it holds. -/
def KeepsAction (s : LiveSync) : PostAction → Prop
  | .create c rootPostId clientMsgId => c = channelId →
      (∀ m ∈ s.client.messages channelId, m.clientMsgId = some (Client.normalizeIdText (clientMsgId.getD "")) →
        m.clientMsgId = some "") ∧
      ∀ r ∈ rootPostId, ∀ post, s.db.posts.lookup r = some post → post.shown channelId r = none
  | .edit id message => ∀ post, s.db.posts.lookup id = some post → post.shown channelId id ≠ none →
      post.message = message
  | .delete id => ∀ post, s.db.posts.lookup id = some post → post.shown channelId id = none

/-- The request is refused, or its action keeps the agreement. -/
def Keeps (s : LiveSync) (request : PostRequest × Drawn) : Prop :=
  (request.1.handle codecs isAlphanumeric s.db request.2).isOk = true →
    ∀ action, request.1.action codecs = some action → s.KeepsAction channelId action

variable {codecs isAlphanumeric hub me channelId} {s s' : LiveSync}

theorem shown_key (k : Uuid) (v : Post) (k' : Uuid) (v' : Post) (w : Shown) (h : v.shown channelId k = some w)
    (h' : v'.shown channelId k' = some w) : k = k' := by
  simp only [Post.shown, Option.ite_none_right_eq_some, Option.some.injEq] at h h'
  exact Uuid.hyphenated_injective (Shown.mk.inj (h.2.trans h'.2.symm)).1

theorem deliver_createdEvents (client : Client.State) {p : PostResponse}
    (hp : ∀ t ∈ p.createdAt :: (p.editedAt.toList ++ p.deletedAt.toList), -2 ^ 63 ≤ t ∧ t < 2 ^ 63) :
    (PostDb.createdEvents codecs p).foldl (deliver codecs hub me) client =
      if hub.Addressed (some ⟨some p.channelId, none, none, none⟩) me then
        Client.handleNewMessage client (Client.postOf p)
      else client := by
  have hupdate : ∀ (c : Client.State) (envs : Option WsEnvelope),
      (∀ env ∈ envs, ∃ data, env = channelEvent .messageUpdated data p.channelId) →
        envs.toList.foldl (deliver codecs hub me) c = c := by
    intro c envs h
    cases envs with
    | none => rfl
    | some env =>
      obtain ⟨data, rfl⟩ := h env rfl
      show deliver codecs hub me c _ = c
      rw [deliver, Client.receive_messageUpdated, ite_self]
  unfold PostDb.createdEvents
  rw [List.foldl_cons, hupdate]
  · show (if _ then _ else _) = _
    rw [Client.receive_created client (by split <;> simp) hp]
    rfl
  · intro env henv
    obtain ⟨r, -, rfl⟩ := Option.map_eq_some_iff.1 henv
    exact ⟨_, rfl⟩

/-! ### One request -/

theorem agrees_modify_iff {db : PostDb} {id : Uuid} {f : Post → Post}
    (h : s.Agrees channelId) (hposts : db.posts = Assoc.modify id f s.db.posts) :
    Agrees channelId ⟨db, s.client⟩ ↔
      ∀ post, s.db.posts.lookup id = some post → (f post).shown channelId id = post.shown channelId id := by
  rw [← Assoc.views_modify_perm_iff shown_key, ← hposts]
  exact ⟨fun h' => h'.symm.trans h, fun h' => h.trans h'.symm⟩

theorem agrees_edit_iff {w : PostWrite} {envs : List WsEnvelope} {drawn : Drawn} {id : Uuid} {message : String}
    (h : s.Agrees channelId) (he : (PostAction.edit id message).Effect codecs s.db drawn w envs) :
    Agrees channelId ⟨s.db.write w, envs.foldl (deliver codecs hub me) s.client⟩ ↔
      s.KeepsAction channelId (.edit id message) := by
  obtain ⟨post, data, -, rfl, rfl⟩ := he
  have hclient : deliver codecs hub me s.client (channelEvent .messageUpdated data post.channelId) = s.client := by
    rw [deliver, Client.receive_messageUpdated, ite_self]
  rw [List.foldl_cons, hclient, List.foldl_nil, agrees_modify_iff h rfl]
  refine forall_congr' fun post => imp_congr_right fun _ => ?_
  unfold Post.shown
  split_ifs with hlive
  · simp only [Option.some.injEq, Shown.mk.injEq, true_and, and_true, ne_eq, reduceCtorEq, not_false_eq_true,
      forall_const]
    exact eq_comm
  · simp

theorem agrees_delete_iff {w : PostWrite} {envs : List WsEnvelope} {drawn : Drawn} {id : Uuid}
    (h : s.Agrees channelId) (he : (PostAction.delete id).Effect codecs s.db drawn w envs) :
    Agrees channelId ⟨s.db.write w, envs.foldl (deliver codecs hub me) s.client⟩ ↔
      s.KeepsAction channelId (.delete id) := by
  obtain ⟨post, data, -, rfl, rfl⟩ := he
  have hclient : deliver codecs hub me s.client (channelEvent .messageDeleted data post.channelId) = s.client := by
    rw [deliver, Client.receive_messageDeleted, ite_self]
  rw [List.foldl_cons, hclient, List.foldl_nil, agrees_modify_iff h rfl]
  refine forall_congr' fun post => imp_congr_right fun _ => ?_
  have hdead : ∀ t : Int, Post.shown channelId id { post with deletedAt := some t } = none :=
    fun t => if_neg fun hl => by cases hl.2.2
  rw [hdead]
  exact eq_comm

theorem sameMessage_iff {p : PostResponse} {m : Client.Message} (h : s.Agrees channelId) (hp : p.id ∉ s.db.posts)
    (hm : m ∈ s.client.messages channelId) :
    Client.SameMessage (Client.messageOf p) m ↔
      m.clientMsgId = some (Client.normalizeIdText (p.clientMsgId.getD "")) ∧ m.clientMsgId ≠ some "" := by
  have hid : m.id ≠ p.id.hyphenated := by
    intro hid
    have hshown := h.mem_iff.1 (List.mem_map_of_mem hm)
    obtain ⟨k, v, hl, hk⟩ := Assoc.mem_views.1 hshown
    simp only [Post.shown, Option.ite_none_right_eq_some, Option.some.injEq] at hk
    have hkey : k.hyphenated = m.id := (Shown.mk.inj hk.2).1
    have hpid : k = p.id := Uuid.hyphenated_injective (hkey.trans hid)
    exact hp (hpid ▸ AList.lookup_isSome.1 (by rw [hl]; rfl))
  unfold Client.SameMessage
  constructor
  · rintro (h' | ⟨-, hne, heq⟩)
    · exact absurd h' hid
    · exact ⟨heq, hne⟩
  · rintro ⟨heq, hne⟩
    exact .inr ⟨by rw [heq]; exact Option.some_ne_none _, hne, heq⟩

theorem no_sameMessage_iff {p : PostResponse} (h : s.Agrees channelId) (hp : p.id ∉ s.db.posts) :
    (∀ m ∈ s.client.messages channelId, ¬ Client.SameMessage (Client.messageOf p) m) ↔
      ∀ m ∈ s.client.messages channelId,
        m.clientMsgId = some (Client.normalizeIdText (p.clientMsgId.getD "")) → m.clientMsgId = some "" := by
  refine forall₂_congr fun m hm => ?_
  rw [sameMessage_iff h hp hm, not_and, not_not]

theorem shown_count (parent : Post) (id : Uuid) (n : Int) (t : Option Int) :
    Post.shown channelId id { parent with replyCount := n, lastReplyAt := t } =
      (parent.shown channelId id).map fun w => { w with replyCount := n } := by
  unfold Post.shown
  split <;> rfl

theorem views_write_insert {db : PostDb} {id : Uuid} {post : Post} {props : Json} (hid : id ∉ db.posts)
    (hroot : ∀ r ∈ post.rootPostId, ∀ parent, db.posts.lookup r = some parent → parent.shown channelId r = none) :
    (Assoc.views (Post.shown channelId) (db.write (.insert id post props)).posts).Perm
      ((post.shown channelId id).toList ++ Assoc.views (Post.shown channelId) db.posts) := by
  have hnew : Assoc.views (Post.shown channelId) (db.posts.insert id { post with props := props }) =
      (post.shown channelId id).toList ++ Assoc.views (Post.shown channelId) db.posts :=
        Assoc.views_insert_new hid
  cases hr : post.rootPostId with
  | none =>
    rw [← hnew, PostDb.write, hr]
    rfl
  | some r =>
    rw [← hnew, PostDb.write, hr]
    refine Assoc.views_modify_perm fun v hv => ?_
    have hnone : v.shown channelId r = none := by
      rcases Assoc.lookup_insert_cases hv with ⟨-, rfl⟩ | ⟨-, hv⟩
      · exact if_neg fun hl => by cases hl.2.1
      · exact hroot r hr v hv
    rw [shown_count, hnone]
    rfl

theorem lookup_write_insert {db : PostDb} {id r : Uuid} {post parent : Post} {props : Json} (hid : id ∉ db.posts)
    (hr : post.rootPostId = some r) (hl : db.posts.lookup r = some parent) :
    (db.write (.insert id post props)).posts.lookup r =
      some { parent with replyCount := parent.replyCount + 1, lastReplyAt := some post.createdAt } := by
  have hne : r ≠ id := by
    rintro rfl
    exact hid (AList.lookup_isSome.1 (by rw [hl]; rfl))
  rw [PostDb.write, hr]
  show (Assoc.modify r _ _).lookup r = _
  rw [Assoc.lookup_modify, if_pos rfl, Assoc.lookup_insert_eq, if_neg hne, hl]
  rfl

theorem agrees_root_iff {db : PostDb} {p : PostResponse} (h : s.Agrees channelId) (hr : p.rootPostId = none)
    (hc : channelId = p.channelId)
    (hviews : (Assoc.views (Post.shown channelId) db.posts).Perm
      ((Client.messageOf p).shown :: Assoc.views (Post.shown channelId) s.db.posts)) :
    Agrees channelId ⟨db, Client.handleNewMessage s.client (Client.postOf p)⟩ ↔
      ∀ m ∈ s.client.messages channelId, ¬ Client.SameMessage (Client.messageOf p) m := by
  unfold Agrees
  rw [Client.messages_handleNewMessage_root hr, if_pos hc]
  constructor
  · intro hperm m hm hsm
    have hlen := (hperm.trans hviews).length_eq
    rw [List.length_map, Client.length_upsert hm hsm, List.length_cons, ← h.length_eq,
      List.length_map] at hlen
    omega
  · intro hno
    rw [Client.upsert_eq_append hno, List.map_append]
    exact (List.perm_append_singleton _ _).trans ((h.cons _).trans hviews.symm)

/-- A reply takes away the message it is taken for, and the count of its live root stays behind. -/
theorem agrees_reply_iff {db : PostDb} {p : PostResponse} {r : Uuid} {parent : Post} (h : s.Agrees channelId)
    (hr : p.rootPostId = some r) (hc : channelId = p.channelId) (hparent : s.db.posts.lookup r = some parent)
    (hviews : parent.shown channelId r = none →
      (Assoc.views (Post.shown channelId) db.posts).Perm (Assoc.views (Post.shown channelId) s.db.posts))
    (hcount : ∀ w, parent.shown channelId r = some w →
      { w with replyCount := parent.replyCount + 1 } ∈ Assoc.views (Post.shown channelId) db.posts) :
    Agrees channelId ⟨db, Client.handleNewMessage s.client (Client.postOf p)⟩ ↔
      (∀ m ∈ s.client.messages channelId, ¬ Client.SameMessage (Client.messageOf p) m) ∧
        parent.shown channelId r = none := by
  unfold Agrees
  rw [Client.messages_handleNewMessage_reply hr, if_pos hc]
  constructor
  · intro hperm
    have hdead : parent.shown channelId r = none := by
      cases hw : parent.shown channelId r with
      | none => rfl
      | some w =>
        -- the new count would be one the client holds, and so the old one
        have hheld := hperm.mem_iff.2 (hcount w hw)
        have hold := h.mem_iff.1 (List.map_subset _ List.eraseP_subset hheld)
        obtain ⟨k, v, hl, hk⟩ := Assoc.mem_views.1 hold
        have hnew : Post.shown channelId r { parent with replyCount := parent.replyCount + 1 } =
            some { w with replyCount := parent.replyCount + 1 } := by
          rw [show Post.shown channelId r _ = _ from shown_count parent r _ parent.lastReplyAt, hw]; rfl
        obtain rfl := shown_key _ _ _ _ _ hk hnew
        rw [hparent] at hl
        obtain rfl := Option.some.inj hl
        rw [← hnew] at hk
        simp only [Post.shown] at hk hw
        split at hk
        · simp at hk
        · next hno => rw [if_neg hno] at hw; cases hw
    refine ⟨fun m hm hsm => ?_, hdead⟩
    have hlen := (hperm.trans (hviews hdead)).length_eq
    have hpos : 0 < (s.client.messages channelId).length := List.length_pos_of_mem hm
    rw [List.length_map, List.length_eraseP_of_mem hm (by simpa using hsm), ← h.length_eq,
      List.length_map] at hlen
    omega
  · rintro ⟨hno, hdead⟩
    rw [List.eraseP_of_forall_not fun m hm hsm => hno m hm (of_decide_eq_true hsm)]
    exact h.trans (hviews hdead).symm

theorem agrees_other {db : PostDb} {p : PostResponse} (h : s.Agrees channelId) (hc : channelId ≠ p.channelId)
    (hviews : (Assoc.views (Post.shown channelId) db.posts).Perm (Assoc.views (Post.shown channelId) s.db.posts))
    (b : Option WsBroadcast) :
    Agrees channelId ⟨db, if hub.Addressed b me then Client.handleNewMessage s.client (Client.postOf p)
      else s.client⟩ := by
  have hmessages : (Client.handleNewMessage s.client (Client.postOf p)).messages channelId =
      s.client.messages channelId := by
    cases hr : p.rootPostId with
    | none => rw [Client.messages_handleNewMessage_root hr, if_neg hc]
    | some r => rw [Client.messages_handleNewMessage_reply hr, if_neg hc]
  unfold Agrees
  split
  · rw [hmessages]
    exact h.trans hviews.symm
  · exact h.trans hviews.symm

theorem agrees_create_iff (hsub : me ∈ subscribers hub.channelSubscriptions channelId) {w : PostWrite}
    {envs : List WsEnvelope} {drawn : Drawn} {c : Uuid} {rootPostId : Option Uuid}
    {clientMsgId : Option String}
    (h : s.Agrees channelId) (he : (PostAction.create c rootPostId clientMsgId).Effect codecs s.db drawn w envs) :
    Agrees channelId ⟨s.db.write w, envs.foldl (deliver codecs hub me) s.client⟩ ↔
      s.KeepsAction channelId (.create c rootPostId clientMsgId) := by
  obtain ⟨hfresh, hroot, userId, input, user, files, props, rfl, rfl, rfl⟩ := he
  let post := s.db.newPost userId c input drawn
  let p := post.toCreatedResponse drawn.id user files clientMsgId
  have hp : ∀ t ∈ [drawn.now.toInt], -2 ^ 63 ≤ t ∧ t < 2 ^ 63 := by
    intro t ht
    rw [List.mem_singleton.1 ht]
    exact ⟨drawn.now.le_toInt, drawn.now.toInt_lt⟩
  rw [deliver_createdEvents s.client hp]
  show Agrees channelId ⟨_, if _ then Client.handleNewMessage s.client (Client.postOf p) else _⟩ ↔ _
  by_cases hc : c = channelId
  · subst c
    have hto : hub.Addressed (some ⟨some p.channelId, none, none, none⟩) me :=
      ⟨hsub, (Option.some_ne_none me).symm⟩
    have hsame : _ ↔ ∀ m ∈ s.client.messages channelId,
        m.clientMsgId = some (Client.normalizeIdText (clientMsgId.getD "")) → m.clientMsgId = some "" :=
      no_sameMessage_iff (p := p) h hfresh
    rw [if_pos hto]
    cases hr : input.rootPostId with
    | none =>
      have hviews : (Assoc.views (Post.shown channelId) (s.db.write (.insert drawn.id post props)).posts).Perm
          ((post.shown channelId drawn.id).toList ++ Assoc.views (Post.shown channelId) s.db.posts) :=
        views_write_insert hfresh fun r hr' => by rw [show post.rootPostId = none from hr] at hr'; cases hr'
      have hshown : post.shown channelId drawn.id = some (Client.messageOf p).shown := if_pos ⟨rfl, hr, rfl⟩
      rw [hshown] at hviews
      rw [agrees_root_iff h hr rfl hviews, hsame]
      exact ⟨fun hno _ => ⟨hno, fun r hr' => by cases hr'⟩, fun hk => (hk rfl).1⟩
    | some r =>
      obtain ⟨parent, hparent, -⟩ := hroot r hr
      have hthe : ∀ r' ∈ post.rootPostId, ∀ v, s.db.posts.lookup r' = some v → r' = r ∧ v = parent := by
        intro r' hr' v hv
        obtain rfl : r = r' := Option.some.inj (hr.symm.trans hr')
        exact ⟨rfl, Option.some.inj (hv.symm.trans hparent)⟩
      have hshown : post.shown channelId drawn.id = none := if_neg fun hl => by
        rw [show post.rootPostId = some r from hr] at hl
        cases hl.2.1
      have hviews : parent.shown channelId r = none →
          (Assoc.views (Post.shown channelId) (s.db.write (.insert drawn.id post props)).posts).Perm
            (Assoc.views (Post.shown channelId) s.db.posts) := by
        intro hdead
        have hv : (Assoc.views (Post.shown channelId) (s.db.write (.insert drawn.id post props)).posts).Perm
            ((post.shown channelId drawn.id).toList ++ Assoc.views (Post.shown channelId) s.db.posts) := by
          refine views_write_insert hfresh fun r' hr' v hv => ?_
          obtain ⟨rfl, rfl⟩ := hthe r' hr' v hv
          exact hdead
        rw [hshown] at hv
        exact hv
      have hcount : ∀ w, parent.shown channelId r = some w → { w with replyCount := parent.replyCount + 1 } ∈
          Assoc.views (Post.shown channelId) (s.db.write (.insert drawn.id post props)).posts := by
        intro w hw
        refine Assoc.mem_views.2 ⟨r, _, lookup_write_insert hfresh hr hparent, ?_⟩
        rw [shown_count, hw]
        rfl
      rw [agrees_reply_iff h hr rfl hparent hviews hcount, hsame]
      constructor
      · rintro ⟨hno, hdead⟩ -
        refine ⟨hno, fun r' hr' v hv => ?_⟩
        obtain ⟨rfl, rfl⟩ := hthe r' (hr.trans hr') v hv
        exact hdead
      · intro hk
        exact ⟨(hk rfl).1, (hk rfl).2 r rfl parent hparent⟩
  · refine iff_of_true (agrees_other h (Ne.symm hc) ?_ _) fun he => absurd he hc
    have hviews : (Assoc.views (Post.shown channelId) (s.db.write (.insert drawn.id post props)).posts).Perm
        ((post.shown channelId drawn.id).toList ++ Assoc.views (Post.shown channelId) s.db.posts) := by
      refine views_write_insert hfresh fun r hr v hv => ?_
      obtain ⟨root, hl, hch⟩ := hroot r hr
      obtain rfl := Option.some.inj (hl.symm.trans hv)
      exact if_neg fun hlive => hc (hch.symm.trans hlive.1)
    rw [show post.shown channelId drawn.id = none from if_neg fun hl => hc hl.1] at hviews
    exact hviews

theorem agrees_step_iff (hsub : me ∈ subscribers hub.channelSubscriptions channelId)
    {request : PostRequest × Drawn} (h : s.Agrees channelId)
    (hs : step codecs isAlphanumeric hub me s request = some s') :
    s'.Agrees channelId ↔ s.Keeps codecs isAlphanumeric channelId request := by
  unfold step at hs
  unfold Keeps
  cases hres : request.1.handle codecs isAlphanumeric s.db request.2 with
  | error e =>
    rw [hres] at hs
    obtain rfl := Option.some.inj hs
    exact iff_of_true h fun hok => by cases hok
  | ok res =>
    obtain ⟨w, envs⟩ := res
    rw [hres] at hs
    obtain rfl := Option.some.inj hs
    obtain ⟨action, haction, heffect⟩ := PostRequest.handle_effect hres
    have hkeeps : ((Except.ok (w, envs) : Except AppError _).isOk = true →
        ∀ a, request.1.action codecs = some a → s.KeepsAction channelId a) ↔
          s.KeepsAction channelId action := by
      rw [haction]
      exact ⟨fun hk => hk rfl action rfl, fun hk _ a ha => Option.some.inj ha ▸ hk⟩
    rw [hkeeps]
    cases action with
    | create c rootPostId clientMsgId => exact agrees_create_iff hsub h heffect
    | edit id message => exact agrees_edit_iff h heffect
    | delete id => exact agrees_delete_iff h heffect

/-! ### Runs -/

variable (codecs isAlphanumeric hub me) in
theorem exec_isSome (s : LiveSync) (requests : List (PostRequest × Drawn)) :
    ∃ t, Run.exec (step codecs isAlphanumeric hub me) s requests = some t := by
  refine Run.exists_exec_of_enabled (fun s request => ?_) s requests
  unfold step
  split <;> exact ⟨_, rfl⟩

/-- A client that agrees with the server about a loaded channel agrees with it throughout a run of requests
if and only if every request of the run meets the condition. -/
theorem agrees_iff_keeps (codecs : Codecs) (isAlphanumeric : Char → Bool) (hub : WsHub) (me channelId : Uuid)
    (hsub : me ∈ subscribers hub.channelSubscriptions channelId) (s : LiveSync) (h : s.Agrees channelId)
    (requests : List (PostRequest × Drawn)) :
    Run.AllStates (step codecs isAlphanumeric hub me) (Agrees channelId) s requests ↔
      Run.AllSteps (step codecs isAlphanumeric hub me) (Keeps codecs isAlphanumeric channelId) s requests := by
  obtain ⟨t, ht⟩ := exec_isSome codecs isAlphanumeric hub me s requests
  refine Run.allStates_iff_allSteps (I := fun _ => True) (fun _ _ _ _ _ => trivial) ?_ trivial h ht
  intro s request s' _ hs hstep
  exact agrees_step_iff hsub hs hstep

/-- User `2` of channel `5` posts; user `1` sees it. -/
theorem agrees_iff_keeps_new_root :
    let codecs : Codecs := ⟨fun s => [5, 2, 7].find? fun u => u.hyphenated = s,
      fun s => if s = "1970-01-01T00:00:00Z" then some 0 else none, fun _ => "1970-01-01T00:00:00Z", id⟩
    let db : PostDb := ⟨∅, AList.insert (5, 2) () ∅, AList.insert 2 ⟨"member", "ann", none⟩ ∅,
      [("member", "post.create")], ∅, none, 0⟩
    let s : LiveSync := ⟨db, ⟨∅, ∅, ∅, ∅, none, none⟩⟩
    let requests : List (PostRequest × Drawn) :=
      [(.createPost 2 5 ⟨"hello", none, none, [], none⟩, ⟨7, 0, 0⟩)]
    (∀ r ∈ requests, (r.1.handle codecs Char.isAlphanum db r.2).isOk = true) ∧
    Run.AllStates (step codecs Char.isAlphanum (WsHub.new.subscribeChannel 1 5) 1) (Agrees 5) s requests := by
  intro codecs db s requests
  refine ⟨fun r hr => by rw [List.mem_singleton.1 hr]; rfl,
    (agrees_iff_keeps codecs Char.isAlphanum _ 1 5 (by decide) s (List.Perm.refl _) requests).2 ?_⟩
  refine Run.allSteps_cons.2 ⟨fun _ action haction => ?_, fun _ _ => Run.allSteps_nil⟩
  obtain rfl := Option.some.inj haction
  exact fun _ => ⟨fun m hm => (by cases hm), fun r hr => (by cases hr)⟩

/-- User `2` edits its post `7` in channel `5`; user `1` keeps the old text. -/
theorem edit_not_shown :
    let codecs : Codecs := ⟨fun s => [5, 2, 7].find? fun u => u.hyphenated = s,
      fun s => if s = "1970-01-01T00:00:00Z" then some 0 else none, fun _ => "1970-01-01T00:00:00Z", id⟩
    let post : Post := ⟨5, 2, none, "a", .obj [], [], false, 0, none, none, 0, none, 0⟩
    let message : Client.Message :=
      ⟨(7 : Uuid).hyphenated, (5 : Uuid).hyphenated, some (2 : Uuid).hyphenated, "a", 0, none, false, none⟩
    let db : PostDb := ⟨AList.insert 7 post ∅, AList.insert (5, 2) () ∅, AList.insert 2 ⟨"member", "ann", none⟩ ∅,
      [("member", "post.create")], ∅, none, 1⟩
    let s : LiveSync := ⟨db, ⟨AList.insert (5 : Uuid).hyphenated [message] ∅, ∅, ∅, ∅, none, none⟩⟩
    s.Agrees 5 ∧ ∃ t, step codecs Char.isAlphanum (WsHub.new.subscribeChannel 1 5) 1 s
      (.updatePost ⟨2, false⟩ 7 "b", ⟨8, 0, 0⟩) = some t ∧ ¬ t.Agrees 5 := by
  intro codecs post message db s
  have hagrees : s.Agrees 5 := by
    have hstore : s.client.messagesByChannel = AList.insert (5 : Uuid).hyphenated [message] ∅ := rfl
    have hmessages : s.client.messages 5 = [message] := by
      rw [Client.State.messages, hstore, Assoc.lookup_insert_self]
      rfl
    unfold Agrees
    rw [hmessages]
    exact List.Perm.refl _
  let request : PostRequest × Drawn := (.updatePost ⟨2, false⟩ 7 "b", ⟨8, 0, 0⟩)
  have hstep : step codecs Char.isAlphanum (WsHub.new.subscribeChannel 1 5) 1 s request = some _ := rfl
  refine ⟨hagrees, _, hstep, fun h => ?_⟩
  have hkeeps : s.Keeps codecs Char.isAlphanum 5 request := (agrees_step_iff (by decide) hagrees hstep).1 h
  have hlive : post.shown 5 7 ≠ none := by
    rw [Post.shown, if_pos ⟨rfl, rfl, rfl⟩]
    exact Option.some_ne_none _
  have htext : "a" = "b" := hkeeps rfl _ rfl post rfl hlive
  exact absurd htext (by decide)

end LiveSync

end Rustchat
