import Rustchat.Posts
import Rustchat.Lib.Run

/-!
# Reading threads and flagged posts (`api/v4/threads.rs`, `api/v4/posts.rs`)

The queries behind these endpoints join threads, follow rows and flags with posts, and never with the
member rows: what they show of a channel does not depend on who is a member of it. The answer is the same for
all texts in foreign channels if and only if the query selects no post of one (`ThreadDb.sameAnswer_iff`).
The thread endpoints that mark read or unread answer with the same query.
-/

namespace Rustchat

structure ThreadMembership where
  following : Bool
  lastReadAt : Option Int
  mentionCount : Int
  unreadRepliesCount : Int

/-- Follow rows and flags are known by their user and their post. -/
structure ThreadDb where
  users : List Uuid
  -- the team of a channel
  channels : Assoc Uuid Uuid
  members : Assoc (Uuid × Uuid) Unit
  posts : Assoc Uuid Post
  threadMemberships : Assoc (Uuid × Uuid) ThreadMembership
  -- when the post was flagged
  savedPosts : Assoc (Uuid × Uuid) Int
  reactions : List Reaction

structure MmAuthUser where
  userId : Uuid
  userManage : Bool

def MmAuthUser.canAccessOwned (auth : MmAuthUser) (ownerId : Uuid) : Prop :=
  auth.userId = ownerId ∨ auth.userManage = true

instance (auth : MmAuthUser) (ownerId : Uuid) : Decidable (auth.canAccessOwned ownerId) :=
  inferInstanceAs (Decidable (_ ∨ _))

structure ThreadsQuery where
  perPage : Int
  page : Int
  unread : Bool

structure PostInThread where
  id : String
  channelId : String
  userId : String
  message : String
  createAt : Int

-- the list of participants is empty
structure MmThread where
  id : String
  replyCount : Int
  lastReplyAt : Int
  lastViewedAt : Int
  post : PostInThread
  unreadReplies : Int
  unreadMentions : Int
  isFollowing : Option Bool

structure ThreadResponse where
  threads : List MmThread
  total : Int
  totalUnreadThreads : Int
  totalUnreadMentions : Int

structure PostList where
  order : List String
  posts : Assoc String MmPost
  nextPostId : String
  prevPostId : String

inductive ReadAnswer where
  | threads (response : ThreadResponse)
  | thread (response : MmThread)
  | posts (response : PostList)

/-- A root post that is not deleted, where a team is given in a channel of it. -/
def ThreadDb.IsThread (db : ThreadDb) (teamId : Option Uuid) (post : Post) : Prop :=
  (∀ t ∈ teamId, db.channels.lookup post.channelId = some t) ∧ post.rootPostId = none ∧ post.deletedAt = none

namespace ThreadDb

instance (db : ThreadDb) (teamId : Option Uuid) (post : Post) : Decidable (db.IsThread teamId post) :=
  decidable_of_iff ((teamId.all fun t => db.channels.lookup post.channelId = some t) ∧ post.rootPostId = none ∧
    post.deletedAt = none) (by simp [IsThread, Option.all_eq_true])

def followed (db : ThreadDb) (userId : Uuid) (teamId : Option Uuid) : List (Uuid × ThreadMembership) :=
  db.threadMemberships.entries.filterMap fun e =>
    if e.1.1 = userId ∧ e.2.following = true ∧
      (db.posts.lookup e.1.2).any (fun post => db.IsThread teamId post) then
      some (e.1.2, e.2)
    else none

def isUnread (tm : ThreadMembership) : Bool := decide (0 < tm.unreadRepliesCount ∨ 0 < tm.mentionCount)

/-- `COALESCE(p.last_reply_at, p.created_at)` -/
def lastActive (db : ThreadDb) (id : Uuid) : Int :=
  (db.posts.lookup id).elim 0 fun post => post.lastReplyAt.getD post.createdAt

/-- `ORDER BY … DESC LIMIT … OFFSET …`; a negative number is an error. -/
def threadPage (db : ThreadDb) (userId : Uuid) (teamId : Option Uuid) (unread : Bool) (query : ThreadsQuery) :
    Except AppError (List Uuid) :=
  let perPage := min query.perPage 100
  let offset := (query.page * perPage).bmod (2 ^ 64)
  let ids := ((db.followed userId teamId).filter fun e => !unread || isUnread e.2).map Prod.fst
  (ensure (0 ≤ perPage ∧ 0 ≤ offset) .database).map fun _ =>
    ((ids.mergeSort fun a b => decide (db.lastActive b ≤ db.lastActive a)).drop offset.toNat).take perPage.toNat

def mmThread (db : ThreadDb) (userId id : Uuid) (post : Post) : MmThread :=
  let tm := (db.threadMemberships.lookup (userId, id)).getD ⟨false, none, 0, 0⟩
  { id := encodeMmId id
    replyCount := post.replyCount
    lastReplyAt := (post.lastReplyAt.map timestampMillis).getD 0
    lastViewedAt := (tm.lastReadAt.map timestampMillis).getD 0
    post := ⟨encodeMmId id, encodeMmId post.channelId, encodeMmId post.userId, post.message,
      timestampMillis post.createdAt⟩
    unreadReplies := tm.unreadRepliesCount
    unreadMentions := tm.mentionCount
    isFollowing := some tm.following }

def mmThreads (db : ThreadDb) (userId : Uuid) (ids : List Uuid) : List MmThread :=
  ids.filterMap fun id => (db.posts.lookup id).map (db.mmThread userId id)

/-- The flagged posts that are not deleted, the last flagged first. -/
def flagged (db : ThreadDb) (userId : Uuid) : List Uuid :=
  let saved := db.savedPosts.entries.filter fun e =>
    e.1.1 = userId ∧ (db.posts.lookup e.1.2).any fun post => post.deletedAt = none
  (saved.mergeSort fun a b => decide (b.2 ≤ a.2)).map fun e => e.1.2

variable (codecs : Codecs)

def reactionsForPost (db : ThreadDb) (id : Uuid) (post : Post) : List Json :=
  (db.reactions.filter fun r => r.postId = id).map fun r =>
    .obj [("user_id", .str (encodeMmId r.userId)), ("post_id", .str (encodeMmId id)),
      ("emoji_name", .str (codecs.emojiShortName r.emojiName)), ("create_at", .num (timestampMillis r.createdAt)),
      ("update_at", .num (timestampMillis r.createdAt)), ("delete_at", .num 0),
      ("channel_id", .str (encodeMmId post.channelId)), ("remote_id", .str "")]

/-- The joined columns of the author do not show in the answer. -/
def mmPost (db : ThreadDb) (id : Uuid) (post : Post) : MmPost :=
  let reactions := db.reactionsForPost codecs id post
  let p := (post.toResponse id none).toMm
  if reactions = [] then p else { p with metadata := some (.obj [("reactions", .arr reactions)]) }

def mmPosts (db : ThreadDb) (ids : List Uuid) : List (String × MmPost) :=
  ids.filterMap fun id => (db.posts.lookup id).map fun post => (encodeMmId id, db.mmPost codecs id post)

def postList (posts : List (String × MmPost)) : PostList where
  order := posts.map Prod.fst
  posts := posts.foldl (fun m p => m.insert p.1 p.2) ∅
  nextPostId := ""
  prevPostId := ""

def resolveUserId (auth : MmAuthUser) (userId invalid forbidden : String) : Except AppError Uuid :=
  if userId = "me" then .ok auth.userId
  else
    (okOr (parseMmOrUuid codecs.parseUuid userId) (.badRequest invalid)).bind fun userId =>
    (ensure (auth.canAccessOwned userId) (.forbidden forbidden)).map fun _ => userId

def threadUser (auth : MmAuthUser) (userId : String) : Except AppError Uuid :=
  resolveUserId codecs auth userId "Invalid user ID" "Cannot access another user's categories"

def getThreads (db : ThreadDb) (auth : MmAuthUser) (userId teamId : String) (query : ThreadsQuery) :
    Except AppError ReadAnswer :=
  (threadUser codecs auth userId).bind fun userId =>
  (okOr (parseMmOrUuid codecs.parseUuid teamId) (.badRequest "Invalid team_id")).bind fun teamId =>
  (db.threadPage userId (some teamId) query.unread query).map fun ids =>
    let followed := db.followed userId (some teamId)
    .threads { threads := db.mmThreads userId ids
               total := followed.length
               totalUnreadThreads := (followed.filter fun e => isUnread e.2).length
               totalUnreadMentions := (followed.map fun e => e.2.mentionCount).sum }

def getAllThreads (db : ThreadDb) (auth : MmAuthUser) (userId : String) (query : ThreadsQuery) :
    Except AppError ReadAnswer :=
  (threadUser codecs auth userId).bind fun userId =>
  (db.threadPage userId none false query).map fun ids =>
    -- replies that are followed count here
    let counted := db.threadMemberships.entries.filter fun e =>
      e.1.1 = userId ∧ e.2.following = true ∧ (db.posts.lookup e.1.2).any fun post => post.deletedAt = none
    .threads ⟨db.mmThreads userId ids, counted.length, 0, 0⟩

def getThread (db : ThreadDb) (auth : MmAuthUser) (userId teamId threadId : String) :
    Except AppError ReadAnswer :=
  (threadUser codecs auth userId).bind fun userId =>
  (okOr (parseMmOrUuid codecs.parseUuid teamId) (.badRequest "Invalid team_id")).bind fun teamId =>
  (okOr (parseMmOrUuid codecs.parseUuid threadId) (.badRequest "Invalid thread_id")).bind fun id =>
  (okOr ((db.posts.lookup id).filter fun post => db.IsThread (some teamId) post) (.notFound "Thread not found")).map
    fun post => .thread (db.mmThread userId id post)

/-- `INSERT … ON CONFLICT DO UPDATE SET following = true`, with its foreign keys. -/
def follow (db : ThreadDb) (userId id : Uuid) : Except AppError ThreadDb :=
  let tm := (db.threadMemberships.lookup (userId, id)).getD ⟨true, none, 0, 0⟩
  (ensure (userId ∈ db.users ∧ id ∈ db.posts) .database).map fun _ =>
    { db with threadMemberships := db.threadMemberships.insert (userId, id) { tm with following := true } }

def unfollow (db : ThreadDb) (userId id : Uuid) : ThreadDb :=
  { db with threadMemberships :=
      Assoc.modify (userId, id) (fun tm => { tm with following := false }) db.threadMemberships }

def followThread (db : ThreadDb) (auth : MmAuthUser) (userId threadId : String) : Except AppError ThreadDb :=
  (threadUser codecs auth userId).bind fun user =>
  (okOr (parseMmOrUuid codecs.parseUuid threadId) (.badRequest "Invalid thread_id")).bind fun id =>
    db.follow user id

def unfollowThread (db : ThreadDb) (auth : MmAuthUser) (userId threadId : String) :
    Except AppError ThreadDb :=
  (threadUser codecs auth userId).bind fun user =>
  (okOr (parseMmOrUuid codecs.parseUuid threadId) (.badRequest "Invalid thread_id")).map fun id =>
    db.unfollow user id

def getFlaggedPosts (db : ThreadDb) (auth : MmAuthUser) (userId : String) : Except AppError ReadAnswer :=
  (resolveUserId codecs auth userId "Invalid user_id" "Cannot access another user's posts").map fun userId =>
    .posts (postList (db.mmPosts codecs (db.flagged userId)))

end ThreadDb

inductive ReadRequest where
  | getThreads (userId teamId : String) (query : ThreadsQuery)
  | getAllThreads (userId : String) (query : ThreadsQuery)
  | getThread (userId teamId threadId : String)
  | followThread (userId teamId threadId : String)
  | unfollowThread (userId teamId threadId : String)
  | getFlaggedPosts (userId : String)

namespace ReadRequest

variable (codecs : Codecs)

def write (db : ThreadDb) (auth : MmAuthUser) : ReadRequest → Except AppError ThreadDb
  | followThread userId _ threadId => db.followThread codecs auth userId threadId
  | unfollowThread userId _ threadId => db.unfollowThread codecs auth userId threadId
  | _ => .ok db

def read (db : ThreadDb) (auth : MmAuthUser) : ReadRequest → Except AppError ReadAnswer
  | getThreads userId teamId query => db.getThreads codecs auth userId teamId query
  | getAllThreads userId query => db.getAllThreads codecs auth userId query
  | getThread userId teamId threadId | followThread userId teamId threadId | unfollowThread userId teamId threadId =>
    db.getThread codecs auth userId teamId threadId
  | getFlaggedPosts userId => db.getFlaggedPosts codecs auth userId

def answer (db : ThreadDb) (auth : MmAuthUser) (request : ReadRequest) : Except AppError ReadAnswer :=
  (request.write codecs db auth).bind fun db => request.read codecs db auth

/-- The posts that the query behind the answer selects. -/
def selected (db : ThreadDb) (auth : MmAuthUser) : ReadRequest → Except AppError (List Uuid)
  | getThreads userId teamId query =>
    (ThreadDb.threadUser codecs auth userId).bind fun userId =>
    (okOr (parseMmOrUuid codecs.parseUuid teamId) (.badRequest "Invalid team_id")).bind fun teamId =>
      db.threadPage userId (some teamId) query.unread query
  | getAllThreads userId query =>
    (ThreadDb.threadUser codecs auth userId).bind fun userId => db.threadPage userId none false query
  | getThread userId teamId threadId | followThread userId teamId threadId | unfollowThread userId teamId threadId =>
    (ThreadDb.threadUser codecs auth userId).bind fun _ =>
    (okOr (parseMmOrUuid codecs.parseUuid teamId) (.badRequest "Invalid team_id")).bind fun teamId =>
    (okOr (parseMmOrUuid codecs.parseUuid threadId) (.badRequest "Invalid thread_id")).map fun id =>
      if (db.posts.lookup id).any fun post => db.IsThread (some teamId) post then [id] else []
  | getFlaggedPosts userId =>
    (ThreadDb.resolveUserId codecs auth userId "Invalid user_id" "Cannot access another user's posts").map fun userId =>
      (db.flagged userId)

end ReadRequest

/-! ### Two states -/

def Post.untexted (post : Post) : Post := { post with message := "" }

def Retexted (posts posts' : Assoc Uuid Post) : Prop :=
  ∀ id, (posts'.lookup id).map Post.untexted = (posts.lookup id).map Post.untexted

/-- The states differ only in the texts of posts in channels that the user is not a member of. -/
def ThreadDb.SameFor (userId : Uuid) (db db' : ThreadDb) : Prop :=
  ∃ posts, db' = { db with posts := posts } ∧ Retexted db.posts posts ∧
    ∀ id post, db.posts.lookup id = some post → (post.channelId, userId) ∈ db.members → posts.lookup id = some post

namespace Retexted

variable {posts posts' : Assoc Uuid Post} {id : Uuid}

theorem row_eq {α : Type*} (h : Retexted posts posts') (f : Option Post → α) (hf : ∀ x, f (x.map Post.untexted) = f x) :
    f (posts'.lookup id) = f (posts.lookup id) := by
  rw [← hf, h id, hf]

theorem any_eq (h : Retexted posts posts') (p : Post → Bool) (hp : ∀ post, p post.untexted = p post) :
    (posts'.lookup id).any p = (posts.lookup id).any p := by
  refine h.row_eq (fun x => x.any p) fun x => ?_
  cases x with
  | none => rfl
  | some post => exact hp post

theorem mem_iff (h : Retexted posts posts') : id ∈ posts' ↔ id ∈ posts := by
  rw [← AList.lookup_isSome, ← AList.lookup_isSome, h.row_eq (fun x => x.isSome) fun x => Option.isSome_map]

theorem exists_row (h : Retexted posts posts') {post : Post} (hl : posts.lookup id = some post) :
    ∃ post', posts'.lookup id = some post' ∧ post'.untexted = post.untexted := by
  have hrow := h id
  rw [hl, Option.map_some] at hrow
  exact Option.map_eq_some_iff.1 hrow

theorem lookup_eq (h : Retexted posts posts')
    (ht : (posts'.lookup id).map Post.message = (posts.lookup id).map Post.message) :
    posts'.lookup id = posts.lookup id := by
  cases hl : posts.lookup id with
  | none =>
    rw [hl] at ht
    exact Option.map_eq_none_iff.1 ht
  | some post =>
    obtain ⟨post', hl', he⟩ := h.exists_row hl
    rw [hl, hl'] at ht
    have hm : post'.message = post.message := Option.some.inj ht
    have hpost : ∀ p : Post, { p.untexted with message := p.message } = p := fun _ => rfl
    rw [hl', ← hpost post', ← hpost post, he, hm]

end Retexted

namespace ThreadDb

variable {db : ThreadDb} {posts : Assoc Uuid Post} {userId : Uuid} {teamId : Option Uuid}

theorem followed_eq (h : Retexted db.posts posts) :
    ({ db with posts := posts } : ThreadDb).followed userId teamId = db.followed userId teamId := by
  unfold followed
  refine List.filterMap_congr fun e _ => ?_
  have hany : (posts.lookup e.1.2).any (fun post => db.IsThread teamId post) =
      (db.posts.lookup e.1.2).any fun post => db.IsThread teamId post := h.any_eq _ fun _ => rfl
  show (if e.1.1 = userId ∧ e.2.following = true ∧ (posts.lookup e.1.2).any (fun post => db.IsThread teamId post) then _
    else _) = _
  rw [hany]

theorem threadPage_eq (h : Retexted db.posts posts) {unread : Bool} {query : ThreadsQuery} :
    ({ db with posts := posts } : ThreadDb).threadPage userId teamId unread query =
      db.threadPage userId teamId unread query := by
  have hactive : ({ db with posts := posts } : ThreadDb).lastActive = db.lastActive := by
    funext id
    refine h.row_eq (fun x => x.elim 0 fun post => post.lastReplyAt.getD post.createdAt) fun x => ?_
    cases x <;> rfl
  unfold threadPage
  rw [followed_eq h, hactive]

theorem flagged_eq (h : Retexted db.posts posts) :
    ({ db with posts := posts } : ThreadDb).flagged userId = db.flagged userId := by
  unfold flagged
  have hany : ∀ id, (posts.lookup id).any (fun post => post.deletedAt = none) =
      (db.posts.lookup id).any fun post => post.deletedAt = none := fun _ => h.any_eq _ fun _ => rfl
  simp only [hany]

theorem filterMap_eq_iff {α β : Type*} {f g : α → Option β} {xs : List α} (h : ∀ x, (f x).isSome = (g x).isSome) :
    xs.filterMap f = xs.filterMap g ↔ ∀ x ∈ xs, f x = g x := by
  induction xs with
  | nil => exact iff_of_true rfl nofun
  | cons x xs ih =>
    rw [List.filterMap_cons, List.filterMap_cons, List.forall_mem_cons, ← ih]
    have hx := h x
    cases hf : f x with
    | none =>
      rw [hf] at hx
      rw [Option.isNone_iff_eq_none.1 (Option.isSome_eq_false_iff.1 hx.symm)]
      exact (and_iff_right rfl).symm
    | some y =>
      rw [hf] at hx
      obtain ⟨z, hg⟩ := Option.isSome_iff_exists.1 hx.symm
      rw [hg, List.cons.injEq, Option.some.injEq]

theorem map_eq_iff {β : Type*} (h : Retexted db.posts posts) {id : Uuid} (shown : Post → β) (text : β → String)
    (ht : ∀ post, text (shown post) = post.message) :
    (posts.lookup id).map shown = (db.posts.lookup id).map shown ↔ posts.lookup id = db.posts.lookup id := by
  refine ⟨fun he => h.lookup_eq ?_, fun he => by rw [he]⟩
  have hm := congrArg (Option.map text) he
  rw [Option.map_map, Option.map_map] at hm
  rw [show Post.message = text ∘ shown from funext fun post => (ht post).symm]
  exact hm

theorem mmThreads_eq_iff (h : Retexted db.posts posts) {ids : List Uuid} :
    ({ db with posts := posts } : ThreadDb).mmThreads userId ids = db.mmThreads userId ids ↔
      ∀ id ∈ ids, posts.lookup id = db.posts.lookup id := by
  have hsome : ∀ id, ((posts.lookup id).map (db.mmThread userId id)).isSome =
      ((db.posts.lookup id).map (db.mmThread userId id)).isSome := fun id => by
    rw [Option.isSome_map, Option.isSome_map, h.row_eq (fun x => x.isSome) fun x => Option.isSome_map]
  have hiff : ∀ id, (posts.lookup id).map (db.mmThread userId id) = (db.posts.lookup id).map (db.mmThread userId id) ↔
      posts.lookup id = db.posts.lookup id := fun id => map_eq_iff h _ (fun t => t.post.message) fun _ => rfl
  refine (filterMap_eq_iff hsome).trans ?_
  simp only [hiff]

variable {codecs : Codecs}

theorem message_mmPost {id : Uuid} {post : Post} : (db.mmPost codecs id post).message = post.message := by
  simp only [mmPost]
  split
  · rfl
  · rfl

theorem lookup_postMap {ids : List Uuid} {id : Uuid} {post : Post} (hid : id ∈ ids) (hl : db.posts.lookup id = some post) :
    ((db.mmPosts codecs ids).foldl (fun m p => m.insert p.1 p.2) (∅ : Assoc String MmPost)).lookup (encodeMmId id) =
      some (db.mmPost codecs id post) := by
  have hpair : (encodeMmId id, db.mmPost codecs id post) ∈ db.mmPosts codecs ids :=
    List.mem_filterMap.2 ⟨id, hid, by rw [hl, Option.map_some]⟩
  refine Assoc.lookup_foldl_insert (fun p hp hk => ?_) (.inl ⟨_, hpair, rfl⟩)
  obtain ⟨id', -, hp⟩ := List.mem_filterMap.1 hp
  obtain ⟨post', hl', rfl⟩ := Option.map_eq_some_iff.1 hp
  have hk' : encodeMmId id' = encodeMmId id := hk
  have hdecode := congrArg decodeMmId hk'
  rw [decodeMmId_encodeMmId, decodeMmId_encodeMmId, Option.some.injEq] at hdecode
  subst id'
  rw [hl, Option.some.injEq] at hl'
  rw [hl']

theorem postList_eq_iff (h : Retexted db.posts posts) {ids : List Uuid} :
    postList (({ db with posts := posts } : ThreadDb).mmPosts codecs ids) = postList (db.mmPosts codecs ids) ↔
      ∀ id ∈ ids, posts.lookup id = db.posts.lookup id := by
  constructor
  · intro he id hid
    refine h.lookup_eq ?_
    cases hl : db.posts.lookup id with
    | none =>
      have hnone := h id
      rw [hl] at hnone
      rw [Option.map_eq_none_iff.1 hnone]
    | some post =>
      obtain ⟨post', hl', -⟩ := h.exists_row hl
      have hmap := congrArg (fun l => l.posts.lookup (encodeMmId id)) he
      have hnew : (postList (({ db with posts := posts } : ThreadDb).mmPosts codecs ids)).posts.lookup (encodeMmId id) =
          some (({ db with posts := posts } : ThreadDb).mmPost codecs id post') := lookup_postMap hid hl'
      have hold : (postList (db.mmPosts codecs ids)).posts.lookup (encodeMmId id) = some (db.mmPost codecs id post) :=
        lookup_postMap hid hl
      have hmessage := congrArg MmPost.message (Option.some.inj ((hnew.symm.trans hmap).trans hold))
      rw [message_mmPost, message_mmPost] at hmessage
      rw [hl', Option.map_some, Option.map_some, hmessage]
  · intro hrows
    refine congrArg postList (List.filterMap_congr fun id hid => ?_)
    rw [← hrows id hid]
    rfl

theorem thread_eq_iff (h : Retexted db.posts posts) {id user team : Uuid} :
    ((okOr ((posts.lookup id).filter fun post => db.IsThread (some team) post) (.notFound "Thread not found")).map
        fun post => ReadAnswer.thread (db.mmThread user id post)) =
      ((okOr ((db.posts.lookup id).filter fun post => db.IsThread (some team) post) (.notFound "Thread not found")).map
        fun post => ReadAnswer.thread (db.mmThread user id post)) ↔
    ∀ ids, (Except.ok (if (db.posts.lookup id).any fun post => db.IsThread (some team) post then [id] else []) :
      Except AppError (List Uuid)) = .ok ids → ∀ id ∈ ids, posts.lookup id = db.posts.lookup id := by
  simp only [Except.ok.injEq, forall_eq']
  have hmap : (posts.lookup id).map (db.mmThread user id) = (db.posts.lookup id).map (db.mmThread user id) ↔
      posts.lookup id = db.posts.lookup id := map_eq_iff h _ (fun t => t.post.message) fun _ => rfl
  cases hl : db.posts.lookup id with
  | none =>
    have hnone := h id
    rw [hl] at hnone
    rw [Option.map_eq_none_iff.1 hnone]
    exact iff_of_true rfl fun _ hid => absurd hid List.not_mem_nil
  | some post =>
    obtain ⟨post', hl', he⟩ := h.exists_row hl
    have hthread : db.IsThread (some team) post' ↔ db.IsThread (some team) post := by
      show db.IsThread (some team) post'.untexted ↔ db.IsThread (some team) post.untexted
      rw [he]
    rw [hl, hl'] at hmap
    rw [hl', Option.filter_some, Option.filter_some, Option.any_some]
    by_cases ht : db.IsThread (some team) post
    · rw [decide_eq_true ht, decide_eq_true (hthread.2 ht)]
      simp only [if_true, List.mem_singleton, forall_eq, hl, hl', ← hmap]
      simp [okOr, Except.map]
    · rw [decide_eq_false ht, decide_eq_false (fun h => ht (hthread.1 h))]
      exact iff_of_true rfl fun _ hid => absurd hid List.not_mem_nil

theorem not_ok_of_error {α : Type*} {e : AppError} {P : α → Prop} :
    ∀ a, (Except.error e : Except AppError α) = .ok a → P a := by
  intro a h
  cases h

/-- Whatever a read answers, it is the same for other texts if and only if the rows it selects are. -/
theorem read_eq_iff (h : Retexted db.posts posts) {auth : MmAuthUser} {request : ReadRequest} :
    request.read codecs { db with posts := posts } auth = request.read codecs db auth ↔
      ∀ ids, request.selected codecs db auth = .ok ids → ∀ id ∈ ids, posts.lookup id = db.posts.lookup id := by
  have hthread : ∀ userId teamId threadId : String,
      ({ db with posts := posts } : ThreadDb).getThread codecs auth userId teamId threadId =
        db.getThread codecs auth userId teamId threadId ↔
      ∀ ids, (ReadRequest.getThread userId teamId threadId).selected codecs db auth = .ok ids →
        ∀ id ∈ ids, posts.lookup id = db.posts.lookup id := by
    intro userId teamId threadId
    simp only [getThread, ReadRequest.selected]
    cases threadUser codecs auth userId with
    | error e => exact iff_of_true rfl not_ok_of_error
    | ok user =>
      cases parseMmOrUuid codecs.parseUuid teamId with
      | none => exact iff_of_true rfl not_ok_of_error
      | some team =>
        cases parseMmOrUuid codecs.parseUuid threadId with
        | none => exact iff_of_true rfl not_ok_of_error
        | some id => exact thread_eq_iff h
  cases request with
  | getThreads userId teamId query =>
    simp only [ReadRequest.read, ReadRequest.selected, getThreads]
    cases threadUser codecs auth userId with
    | error e => exact iff_of_true rfl not_ok_of_error
    | ok user =>
      cases parseMmOrUuid codecs.parseUuid teamId with
      | none => exact iff_of_true rfl not_ok_of_error
      | some team =>
        simp only [okOr, Option.elim, Except.bind, threadPage_eq h, followed_eq h]
        cases db.threadPage user (some team) query.unread query with
        | error e => exact iff_of_true rfl not_ok_of_error
        | ok ids =>
          simp only [Except.map, Except.ok.injEq, ReadAnswer.threads.injEq, ThreadResponse.mk.injEq, and_true,
            mmThreads_eq_iff h, forall_eq']
  | getAllThreads userId query =>
    have hcounted : ∀ id, (posts.lookup id).any (fun post => post.deletedAt = none) =
        (db.posts.lookup id).any fun post => post.deletedAt = none := fun _ => h.any_eq _ fun _ => rfl
    simp only [ReadRequest.read, ReadRequest.selected, getAllThreads]
    cases threadUser codecs auth userId with
    | error e => exact iff_of_true rfl not_ok_of_error
    | ok user =>
      simp only [Except.bind, threadPage_eq h, hcounted]
      cases db.threadPage user none false query with
      | error e => exact iff_of_true rfl not_ok_of_error
      | ok ids =>
        simp only [Except.map, Except.ok.injEq, ReadAnswer.threads.injEq, ThreadResponse.mk.injEq, and_true,
          mmThreads_eq_iff h, forall_eq']
  | getThread userId teamId threadId => exact hthread userId teamId threadId
  | followThread userId teamId threadId => exact hthread userId teamId threadId
  | unfollowThread userId teamId threadId => exact hthread userId teamId threadId
  | getFlaggedPosts userId =>
    simp only [ReadRequest.read, ReadRequest.selected, getFlaggedPosts]
    cases resolveUserId codecs auth userId "Invalid user_id" "Cannot access another user's posts" with
    | error e => exact iff_of_true rfl not_ok_of_error
    | ok user =>
      simp only [Except.map, Except.ok.injEq, ReadAnswer.posts.injEq, flagged_eq h, postList_eq_iff h,
        forall_eq']

theorem write_eq (codecs : Codecs) (auth : MmAuthUser) (request : ReadRequest) (h : Retexted db.posts posts) :
    request.write codecs { db with posts := posts } auth =
        (request.write codecs db auth).map (fun d => { d with posts := posts }) ∧
      ∀ d, request.write codecs db auth = .ok d → d.posts = db.posts ∧
        request.selected codecs d auth = request.selected codecs db auth := by
  cases request with
  | followThread userId teamId threadId =>
    simp only [ReadRequest.write, ReadRequest.selected, followThread]
    cases threadUser codecs auth userId with
    | error e => exact ⟨rfl, not_ok_of_error⟩
    | ok user =>
      cases parseMmOrUuid codecs.parseUuid threadId with
      | none => exact ⟨rfl, not_ok_of_error⟩
      | some id =>
        simp only [okOr, Option.elim, Except.bind, follow, ensure, h.mem_iff]
        by_cases hkeys : user ∈ db.users ∧ id ∈ db.posts
        · rw [if_pos hkeys]
          refine ⟨rfl, fun d hd => ?_⟩
          obtain rfl := Except.ok.inj hd
          exact ⟨rfl, rfl⟩
        · rw [if_neg hkeys]
          exact ⟨rfl, not_ok_of_error⟩
  | unfollowThread userId teamId threadId =>
    simp only [ReadRequest.write, ReadRequest.selected, unfollowThread]
    cases threadUser codecs auth userId with
    | error e => exact ⟨rfl, not_ok_of_error⟩
    | ok user =>
      cases parseMmOrUuid codecs.parseUuid threadId with
      | none => exact ⟨rfl, not_ok_of_error⟩
      | some id =>
        refine ⟨rfl, fun d hd => ?_⟩
        obtain rfl := Except.ok.inj hd
        exact ⟨rfl, rfl⟩
  | getThreads userId teamId query => exact ⟨rfl,
    fun d hd => by obtain rfl := Except.ok.inj hd; exact ⟨rfl, rfl⟩⟩
  | getAllThreads userId query => exact ⟨rfl, fun d hd => by obtain rfl := Except.ok.inj hd; exact ⟨rfl, rfl⟩⟩
  | getThread userId teamId threadId => exact ⟨rfl,
    fun d hd => by obtain rfl := Except.ok.inj hd; exact ⟨rfl, rfl⟩⟩
  | getFlaggedPosts userId => exact ⟨rfl, fun d hd => by obtain rfl := Except.ok.inj hd; exact ⟨rfl, rfl⟩⟩

theorem answer_eq_iff (h : Retexted db.posts posts) {auth : MmAuthUser} {request : ReadRequest} :
    request.answer codecs { db with posts := posts } auth = request.answer codecs db auth ↔
      ∀ d, request.write codecs db auth = .ok d → ∀ ids, request.selected codecs db auth = .ok ids →
        ∀ id ∈ ids, posts.lookup id = db.posts.lookup id := by
  obtain ⟨hwrite, hd⟩ := write_eq codecs auth request h
  rw [ReadRequest.answer, ReadRequest.answer, hwrite]
  cases hw : request.write codecs db auth with
  | error e => exact iff_of_true rfl not_ok_of_error
  | ok d =>
    obtain ⟨hposts, hsel⟩ := hd d hw
    have hread : request.read codecs { d with posts := posts } auth = request.read codecs d auth ↔ _ :=
      read_eq_iff (hposts ▸ h)
    rw [hsel, hposts] at hread
    simp only [Except.ok.injEq, forall_eq']
    exact hread

/-- The answer is the same for all texts in foreign channels. -/
def SameAnswer (codecs : Codecs) (db : ThreadDb) (auth : MmAuthUser) (request : ReadRequest) : Prop :=
  ∀ db', SameFor auth.userId db db' → request.answer codecs db' auth = request.answer codecs db auth

/-- The query of a request whose write succeeds selects posts of channels only that the user is a member of. -/
def MemberReads (codecs : Codecs) (db : ThreadDb) (auth : MmAuthUser) (request : ReadRequest) : Prop :=
  ∀ d, request.write codecs db auth = .ok d → ∀ ids, request.selected codecs db auth = .ok ids →
    ∀ id ∈ ids, ∀ post, db.posts.lookup id = some post → (post.channelId, auth.userId) ∈ db.members

theorem retexted_insert {id : Uuid} {post : Post} (hl : db.posts.lookup id = some post) (text : String) :
    Retexted db.posts (db.posts.insert id { post with message := text }) := by
  intro id'
  rw [Assoc.lookup_insert_eq]
  split
  · subst id'
    rw [hl]
    rfl
  · rfl

theorem sameFor_insert {id : Uuid} {post : Post} (hl : db.posts.lookup id = some post)
    (hm : (post.channelId, userId) ∉ db.members) (text : String) :
    SameFor userId db { db with posts := db.posts.insert id { post with message := text } } := by
  refine ⟨_, rfl, retexted_insert hl text, fun id' post' hl' hm' => ?_⟩
  rw [Assoc.lookup_insert_eq, if_neg, hl']
  rintro rfl
  obtain rfl := Option.some.inj (hl.symm.trans hl')
  exact hm hm'

theorem sameAnswer_iff {auth : MmAuthUser} {request : ReadRequest} :
    SameAnswer codecs db auth request ↔ MemberReads codecs db auth request := by
  constructor
  · intro h d hd ids hsel id hid post hl
    by_contra hm
    have hanswer := h _ (sameFor_insert hl hm (post.message ++ "x"))
    have hrow := (answer_eq_iff (retexted_insert hl (post.message ++ "x"))).1 hanswer d hd ids hsel id hid
    rw [Assoc.lookup_insert_self, hl, Option.some.injEq] at hrow
    have hlength := congrArg (fun p => p.message.length) hrow
    simp [String.length_append] at hlength
  · rintro h db' ⟨posts, rfl, hretexted, htexts⟩
    refine (answer_eq_iff hretexted).2 fun d hd ids hsel id hid => ?_
    cases hl : db.posts.lookup id with
    | none =>
      have hnone := hretexted id
      rw [hl] at hnone
      exact Option.map_eq_none_iff.1 hnone
    | some post => exact htexts id post hl (h d hd ids hsel id hid post hl)

end ThreadDb

/-! ### Runs -/

inductive ReadOp where
  | join (channelId userId : Uuid)
  | remove (channelId userId : Uuid)
  -- the rest of the server changes the other tables
  | elsewhere (tables : ThreadDb)
  | request (auth : MmAuthUser) (request : ReadRequest)

namespace ThreadDb

variable (codecs : Codecs)

def step (db : ThreadDb) : ReadOp → Option ThreadDb
  | .join channelId userId => some { db with members := db.members.insert (channelId, userId) () }
  | .remove channelId userId => some { db with members := db.members.erase (channelId, userId) }
  | .elsewhere tables => some { tables with members := db.members }
  | .request auth request =>
    match request.write codecs db auth with
    | .ok db => some db
    | .error _ => some db

/-- The answer to a request does not depend on foreign texts. -/
def Confined (db : ThreadDb) : ReadOp → Prop
  | .request auth request => SameAnswer codecs db auth request
  | _ => True

def OwnChannels (db : ThreadDb) : ReadOp → Prop
  | .request auth request => MemberReads codecs db auth request
  | _ => True

/-- In a run no answer depends on texts in foreign channels if and only if no request selects posts of one. -/
theorem confined_iff_ownChannels (codecs : Codecs) (db : ThreadDb) (ops : List ReadOp) :
    Run.AllSteps (step codecs) (Confined codecs) db ops ↔
      Run.AllSteps (step codecs) (OwnChannels codecs) db ops := by
  have hiff : ∀ db op, Confined codecs db op ↔ OwnChannels codecs db op := by
    intro db op
    cases op with
    | request auth request => exact sameAnswer_iff
    | join channelId userId => exact Iff.rfl
    | remove channelId userId => exact Iff.rfl
    | elsewhere tables => exact Iff.rfl
  constructor
  · intro h pre op suf hp t ht
    exact (hiff t op).1 (h pre op suf hp t ht)
  · intro h pre op suf hp t ht
    exact (hiff t op).2 (h pre op suf hp t ht)

/-- User `2` follows the thread `7` of channel `5`, which it is not a member of. -/
theorem follower_reads_foreign_text :
    let codecs : Codecs := ⟨fun s => [1, 5, 2, 7].find? fun u => u.hyphenated = s,
      fun s => if s = "1970-01-01T00:00:00Z" then some 0 else none, fun _ => "1970-01-01T00:00:00Z", id⟩
    let post : Post := ⟨5, 3, none, "secret", .obj [], [], false, 0, none, none, 0, none, 0⟩
    let db : ThreadDb := ⟨[2, 3], AList.insert 5 1 ∅, AList.insert (5, 3) () ∅, AList.insert 7 post ∅, ∅,
      ∅, []⟩
    ¬ Run.AllSteps (step codecs) (Confined codecs) db
      [.request ⟨2, false⟩ (.followThread "me" (1 : Uuid).hyphenated (7 : Uuid).hyphenated)] := by
  intro codecs post db h
  have hreads := sameAnswer_iff.1 (h [] _ [] rfl db rfl)
  have hmember := hreads _ rfl _ rfl 7 (List.mem_singleton_self _) post rfl
  revert hmember
  decide

end ThreadDb

end Rustchat
