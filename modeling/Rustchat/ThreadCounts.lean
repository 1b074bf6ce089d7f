import Rustchat.ReplyCounts
import Rustchat.ThreadAccess
import Rustchat.Unreads

/-!
# Unread replies (`api/v4/threads.rs`, `api/v4/posts.rs`, `services/posts.rs`)

A member of a thread has a row with a time up to which the thread is read and with the number of replies that are not.
The handlers of threads write both by rules of their own, and `create_post` looks at neither.
`ThreadCounts.right_iff_keeps` says which runs keep the number equal to what the posts say.
-/

namespace Rustchat

namespace ThreadCounts

structure Store where
  db : PostDb
  threadMemberships : Assoc (Uuid × Uuid) ThreadMembership

/-- `parse_mm_or_uuid` reads the ids of the path. -/
structure ThreadPath where
  userId : String
  teamId : String
  threadId : String

/-- What runs: `create_post` with the time of its second statement, and the handlers. A body that cannot be read is
`none`, and `crtEnabled` is the answer of `is_crt_enabled_for_user`. -/
inductive Act
  | createPost (call : CreateCall) (countedAt : Int64)
  | followThread (auth : MmAuthUser) (userId threadId : String)
  | unfollowThread (auth : MmAuthUser) (userId threadId : String)
  | markThreadRead (auth : MmAuthUser) (path : ThreadPath) (timestamp utcNow : Int64)
  | setThreadUnread (auth : MmAuthUser) (path : ThreadPath) (postId : String)
  | setPostUnread (auth : MmAuthUser) (userId postId : String) (collapsedThreadsSupported : Option Bool)
    (crtEnabled : Bool)

/-- The undeleted replies to `r` that meet `p`. -/
def countReplies (db : PostDb) (r : Uuid) (p : Post → Bool) : ℕ :=
  (Assoc.views (fun _ post => if post.rootPostId = some r ∧ post.deletedAt = none ∧ p post = true then some () else none)
    db.posts).length

/-- `DateTime::from_timestamp_millis`, in microseconds. -/
def fromTimestampMillis (millis : Int64) : Option Int :=
  if -8334601228800000 ≤ millis.toInt ∧
    millis.toInt ≤ 8210266876799999 then some (millis.toInt * 1000) else none

/-- The earliest time that a column can hold. -/
def minTimestamp : Int := -210866803200000000

def maxInt4 : ℕ := 2 ^ 31 - 1

/-- The mentions that are counted in `set_post_unread`. -/
def mentions (username message : String) : Bool :=
  Unreads.like ("%@" ++ username ++ "%") message || Unreads.like "%@all%" message ||
    Unreads.like "%@channel%" message

namespace Store

/-- The tables that the handlers of threads write through; following a thread reads no other. -/
def threadDb (s : Store) : ThreadDb where
  users := s.db.users.keys
  channels := ∅
  members := s.db.members
  posts := s.db.posts
  threadMemberships := s.threadMemberships
  savedPosts := ∅
  reactions := []

def write (s : Store) (userId id : Uuid) (tm : ThreadMembership) : Store :=
  { s with threadMemberships := s.threadMemberships.insert (userId, id) tm }

def MayWrite (s : Store) (userId id : Uuid) : Prop := userId ∈ s.db.users ∧ id ∈ s.db.posts

instance (s : Store) (userId id : Uuid) : Decidable (s.MayWrite userId id) :=
  inferInstanceAs (Decidable (_ ∧ _))

/-- `INSERT … ON CONFLICT DO UPDATE` -/
def upsert (s : Store) (userId id : Uuid) (new : ThreadMembership) (update : ThreadMembership → ThreadMembership) :
    Except AppError Store :=
  (ensure (s.MayWrite userId id) .database).map fun _ =>
    s.write userId id ((s.threadMemberships.lookup (userId, id)).elim new update)

variable (codecs : Codecs) (s : Store)

def followThread (auth : MmAuthUser) (userId threadId : String) : Except AppError Store :=
  (s.threadDb.followThread codecs auth userId threadId).map fun db =>
    { s with threadMemberships := db.threadMemberships }

def unfollowThread (auth : MmAuthUser) (userId threadId : String) : Except AppError Store :=
  (s.threadDb.unfollowThread codecs auth userId threadId).map fun db =>
    { s with threadMemberships := db.threadMemberships }

end Store

/-- The user and the thread of a path with a team. -/
def ThreadPath.parse (codecs : Codecs) (auth : MmAuthUser) (path : ThreadPath) :
    Except AppError (Uuid × Uuid) :=
  (ThreadDb.threadUser codecs auth path.userId).bind fun userId =>
  (okOr (parseMmOrUuid codecs.parseUuid path.teamId) (.badRequest "Invalid team_id")).bind fun _ =>
  (okOr (parseMmOrUuid codecs.parseUuid path.threadId) (.badRequest "Invalid thread_id")).map fun threadId =>
    (userId, threadId)

namespace Store

variable (codecs : Codecs) (s : Store)

def markThreadRead (auth : MmAuthUser) (path : ThreadPath) (timestamp utcNow : Int64) :
    Except AppError Store :=
  (path.parse codecs auth).bind fun (userId, threadId) =>
    let readAt := (fromTimestampMillis timestamp).getD utcNow.toInt
    (ensure (minTimestamp ≤ readAt) .database).bind fun _ =>
      s.upsert userId threadId
        { following := true, lastReadAt := some readAt, mentionCount := 0, unreadRepliesCount := 0 }
        fun tm => { tm with lastReadAt := some readAt, mentionCount := 0, unreadRepliesCount := 0 }

/-- A millisecond before a reply to the thread, deleted or not. -/
def beforeReply (threadId postId : Uuid) : Option Int :=
  ((s.db.posts.lookup postId).filter fun post => post.rootPostId = some threadId).map fun post => post.createdAt - 1000

def setThreadUnread (auth : MmAuthUser) (path : ThreadPath) (postId : String) : Except AppError Store :=
  (path.parse codecs auth).bind fun (userId, threadId) =>
  (okOr (parseMmOrUuid codecs.parseUuid postId) (.badRequest "Invalid post_id")).bind fun postId =>
    let lastReadAt := s.beforeReply threadId postId
    s.upsert userId threadId
      { following := true, lastReadAt := lastReadAt, mentionCount := 0, unreadRepliesCount := 1 }
      fun tm => { tm with lastReadAt := lastReadAt, unreadRepliesCount := max tm.unreadRepliesCount 1 }

/-- What `set_post_unread` reads before it writes: the user, the post and whether the request collapses threads. -/
def unreadPost (auth : MmAuthUser) (userId postId : String) (collapsedThreadsSupported : Option Bool) :
    Except AppError (Uuid × PostUser × Post × Bool) :=
  ((ThreadDb.threadUser codecs auth userId).mapError fun _ =>
    .forbidden "Cannot access another user's posts").bind fun userId =>
  (okOr (parseMmOrUuid codecs.parseUuid postId) (.badRequest "Invalid post_id")).bind fun postId =>
  (okOr collapsedThreadsSupported (.badRequest "Invalid set unread body")).bind fun supported =>
  (okOr ((s.db.posts.lookup postId).filter fun post => post.deletedAt = none) .database).bind fun post =>
  (okOr (s.db.members.lookup (post.channelId, userId)) (.forbidden "Not a member of this channel")).bind fun _ =>
  (okOr (s.db.users.lookup userId) .database).map fun user => (userId, user, post, supported)

variable (threadAutoFollow : Bool)

/-- The thread that `set_post_unread` writes a row of. -/
def unreadThread (post : Post) (supported crtEnabled : Bool) : Option Uuid :=
  post.rootPostId.filter fun _ => !(supported && crtEnabled) && threadAutoFollow

def setPostUnread (auth : MmAuthUser) (userId postId : String) (collapsedThreadsSupported : Option Bool)
    (crtEnabled : Bool) : Except AppError Store :=
  (s.unreadPost codecs auth userId postId collapsedThreadsSupported).bind fun (userId, user, post, supported) =>
    match unreadThread threadAutoFollow post supported crtEnabled with
    | some threadId =>
      let markViewAt := post.createdAt - 1000
      let tm : ThreadMembership := {
        following := true
        lastReadAt := some markViewAt
        mentionCount := min maxInt4 (countReplies s.db threadId fun reply =>
          decide (markViewAt < reply.createdAt) && mentions user.username reply.message)
        unreadRepliesCount := min maxInt4 (countReplies s.db threadId fun reply =>
          decide (markViewAt < reply.createdAt)) }
      s.upsert userId threadId tm fun _ => tm
    | none => .ok s

variable (isAlphanumeric : Char → Bool)

def createPost (call : CreateCall) (countedAt : Int64) : Except AppError Store :=
  (s.db.createPost codecs isAlphanumeric call.userId call.channelId call.input call.clientMsgId call.drawn).map
    fun (w, _) => { s with db := ReplyCounts.setLastReplyAt (s.db.write w) w countedAt }

end Store

section Run

variable (codecs : Codecs) (isAlphanumeric : Char → Bool) (threadAutoFollow : Bool)

def Act.run (s : Store) : Act → Except AppError Store
  | createPost call countedAt => s.createPost codecs isAlphanumeric call countedAt
  | followThread auth userId threadId => s.followThread codecs auth userId threadId
  | unfollowThread auth userId threadId => s.unfollowThread codecs auth userId threadId
  | markThreadRead auth path timestamp utcNow => s.markThreadRead codecs auth path timestamp utcNow
  | setThreadUnread auth path postId => s.setThreadUnread codecs auth path postId
  | setPostUnread auth userId postId supported crtEnabled =>
    s.setPostUnread codecs threadAutoFollow auth userId postId supported crtEnabled

/-- What fails changes nothing. -/
def step (s : Store) (act : Act) : Option Store :=
  some ((act.run codecs isAlphanumeric threadAutoFollow s).toOption.getD s)

-- whether all replies are unread for a member without a time, or none
variable (neverRead : Bool)

def isAfter (lastReadAt : Option Int) (t : Int) : Bool :=
  lastReadAt.elim neverRead fun readAt => decide (readAt < t)

def unreadReplies (db : PostDb) (userId id : Uuid) (lastReadAt : Option Int) : ℕ :=
  countReplies db id fun reply => decide (reply.userId ≠ userId) && isAfter neverRead lastReadAt reply.createdAt

def RightRow (db : PostDb) (userId id : Uuid) (tm : ThreadMembership) : Prop :=
  tm.following = true → tm.unreadRepliesCount = unreadReplies neverRead db userId id tm.lastReadAt

/-- Every member who follows a thread has the right number of unread replies. -/
def Right (s : Store) : Prop :=
  ∀ userId id tm, s.threadMemberships.lookup (userId, id) = some tm → RightRow neverRead s.db userId id tm

def Store.Following (s : Store) (userId id : Uuid) : Prop :=
  ∀ tm, s.threadMemberships.lookup (userId, id) = some tm → tm.following = true

/-- What keeps the numbers right:
a new reply is unread for no follower but its author;
a thread that is followed anew has the right number already, and without a row nothing to read;
nothing is unread after the time up to which a thread is marked as read;
as many replies are unread after the time of an unread mark as the row says, or one;
the user of a recount has no reply after its time, and the number fits. -/
def Keeps (s : Store) : Act → Prop
  | .createPost call _ => s.db.MayCreate call.drawn call.userId call.channelId call.input →
    ∀ r, call.input.rootPostId = some r → ∀ userId tm, s.threadMemberships.lookup (userId, r) = some tm →
      tm.following = true → userId = call.userId ∨
        isAfter neverRead tm.lastReadAt call.drawn.now.toInt = false
  | .followThread auth userId threadId => ∀ user, ThreadDb.threadUser codecs auth userId = .ok user →
    ∀ id, parseMmOrUuid codecs.parseUuid threadId = some id → s.MayWrite user id →
      match s.threadMemberships.lookup (user, id) with
      | some tm => tm.unreadRepliesCount = unreadReplies neverRead s.db user id tm.lastReadAt
      | none => unreadReplies neverRead s.db user id none = 0
  | .unfollowThread _ _ _ => True
  | .markThreadRead auth path timestamp utcNow => ∀ user id, path.parse codecs auth = .ok (user, id) →
    s.MayWrite user id → minTimestamp ≤ (fromTimestampMillis timestamp).getD utcNow.toInt → s.Following user id →
      unreadReplies neverRead s.db user id (some ((fromTimestampMillis timestamp).getD utcNow.toInt)) = 0
  | .setThreadUnread auth path postId => ∀ user id, path.parse codecs auth = .ok (user, id) →
    ∀ post, parseMmOrUuid codecs.parseUuid postId = some post → s.MayWrite user id → s.Following user id →
      unreadReplies neverRead s.db user id (s.beforeReply id post) =
        (s.threadMemberships.lookup (user, id)).elim (1 : Int) fun tm => max tm.unreadRepliesCount 1
  | .setPostUnread auth userId postId supported crtEnabled => ∀ user row post collapsed,
    s.unreadPost codecs auth userId postId supported = .ok (user, row, post, collapsed) →
    ∀ id, Store.unreadThread threadAutoFollow post collapsed crtEnabled = some id → s.MayWrite user id →
      let unread := unreadReplies neverRead s.db user id (some (post.createdAt - 1000))
      let own := countReplies s.db id fun reply =>
        decide (reply.userId = user) && decide (post.createdAt - 1000 < reply.createdAt)
      own = 0 ∧ unread ≤ maxInt4 ∨ unread = maxInt4

end Run

variable {db : PostDb} {userId id : Uuid} {new : Post} {props : Json} {countedAt : Int64} {p q : Post → Bool}

theorem countReplies_posted (hfresh : id ∉ db.posts) (hlive : new.deletedAt = none)
    (hp : ∀ post post', PostDb.SameRow post post' → p post' = p post) (r : Uuid) :
    countReplies (ReplyCounts.posted db id new props countedAt) r p =
      countReplies db r p + if new.rootPostId = some r ∧ p new = true then 1 else 0 := by
  have hviews := ReplyCounts.views_posted new props countedAt hfresh
    (g := fun _ post => if post.rootPostId = some r ∧ post.deletedAt = none ∧ p post = true then some () else none)
    fun k post post' h => by rw [h.rootPostId, h.deletedAt, hp post post' h]
  unfold countReplies
  rw [hviews.length_eq, List.length_append, Nat.add_comm]
  congr 1
  by_cases hnew : new.rootPostId = some r ∧ p new = true
  · rw [if_pos hnew, if_pos ⟨hnew.1, hlive, hnew.2⟩]
    rfl
  · rw [if_neg hnew, if_neg fun h => hnew ⟨h.1, h.2.2⟩]
    rfl

theorem countReplies_eq_countP (r : Uuid) (p : Post → Bool) : countReplies db r p =
    db.posts.entries.countP fun e => decide (e.2.rootPostId = some r ∧ e.2.deletedAt = none) && p e.2 := by
  unfold countReplies Assoc.views
  rw [List.length_filterMap_eq_countP]
  congr 1
  funext e
  by_cases h : e.2.rootPostId = some r ∧ e.2.deletedAt = none
  · cases hp : p e.2 <;> simp [h, hp]
  · have hn : ¬ (e.2.rootPostId = some r ∧ e.2.deletedAt = none ∧ p e.2 = true) := fun hn => h ⟨hn.1, hn.2.1⟩
    simp [h, hn]

theorem countReplies_split (r : Uuid) (p q : Post → Bool) : countReplies db r p =
    countReplies db r (fun post => q post && p post) + countReplies db r fun post => !q post && p post := by
  rw [countReplies_eq_countP, countReplies_eq_countP, countReplies_eq_countP]
  induction db.posts.entries with
  | nil => rfl
  | cons e entries ih =>
    rw [List.countP_cons, List.countP_cons, List.countP_cons, ih]
    cases decide (e.2.rootPostId = some r ∧ e.2.deletedAt = none) <;> cases q e.2 <;> cases p e.2 <;> simp <;> omega

variable {neverRead : Bool} {s s' : Store} {tm : ThreadMembership}

theorem right_write_iff (h : Right neverRead s) :
    Right neverRead (s.write userId id tm) ↔ RightRow neverRead s.db userId id tm := by
  constructor
  · exact fun h' => h' userId id tm Assoc.lookup_insert_self
  · intro hrow userId' id' tm' hlookup
    rcases Assoc.lookup_insert_cases hlookup with ⟨hk, rfl⟩ | ⟨-, hold⟩
    · obtain ⟨rfl, rfl⟩ := Prod.mk.inj hk
      exact hrow
    · exact h userId' id' tm' hold

theorem right_iff_of_writes (h : Right neverRead s) {x : Except AppError Store} {A : Uuid → Uuid → Prop}
    {f : Uuid → Uuid → ThreadMembership}
    (hx : ∀ s', x = .ok s' → s' = s ∨ ∃ u i, A u i ∧ s' = s.write u i (f u i))
    (hA : ∀ u i, A u i → x = .ok (s.write u i (f u i))) :
    Right neverRead (x.toOption.getD s) ↔ ∀ u i, A u i → RightRow neverRead s.db u i (f u i) := by
  constructor
  · intro h' u i ha
    rw [hA u i ha] at h'
    exact (right_write_iff h).1 h'
  · intro hrows
    cases hres : x with
    | error e => exact h
    | ok s' =>
      rcases hx s' hres with rfl | ⟨u, i, ha, rfl⟩
      · exact h
      · exact (right_write_iff h).2 (hrows u i ha)

theorem upsert_eq_ok {update : ThreadMembership → ThreadMembership} : s.upsert userId id tm update = .ok s' ↔
    s.MayWrite userId id ∧ s' = s.write userId id ((s.threadMemberships.lookup (userId, id)).elim tm update) := by
  unfold Store.upsert ensure
  by_cases h : s.MayWrite userId id
  · rw [if_pos h]
    exact ⟨fun he => ⟨h, (Except.ok.inj he).symm⟩, fun he => congrArg Except.ok he.2.symm⟩
  · rw [if_neg h]
    exact ⟨fun he => (nomatch he), fun he => absurd he.1 h⟩

variable {codecs : Codecs} {auth : MmAuthUser} {path : ThreadPath} {threadId postId userIdPath : String}

def followRow (s : Store) (userId id : Uuid) : ThreadMembership :=
  { (s.threadMemberships.lookup (userId, id)).getD ⟨true, none, 0, 0⟩ with following := true }

theorem followThread_eq_ok : s.followThread codecs auth userIdPath threadId = .ok s' ↔
    ∃ userId id, (ThreadDb.threadUser codecs auth userIdPath = .ok userId ∧
      parseMmOrUuid codecs.parseUuid threadId = some id ∧ s.MayWrite userId id) ∧
      s' = s.write userId id (followRow s userId id) := by
  simp only [Store.followThread, ThreadDb.followThread, ThreadDb.follow, map_eq_ok, bind_eq_ok,
    okOr_eq_ok, ensure_eq_ok]
  constructor
  · rintro ⟨_, ⟨userId, huser, id, hid, _, hmay, rfl⟩, rfl⟩
    exact ⟨userId, id, ⟨huser, hid, hmay⟩, rfl⟩
  · rintro ⟨userId, id, ⟨huser, hid, hmay⟩, rfl⟩
    exact ⟨_, ⟨userId, huser, id, hid, (), hmay, rfl⟩, rfl⟩

theorem unfollowThread_eq_ok : s.unfollowThread codecs auth userIdPath threadId = .ok s' ↔
    ∃ userId id, (ThreadDb.threadUser codecs auth userIdPath = .ok userId ∧
      parseMmOrUuid codecs.parseUuid threadId = some id) ∧ s' = { s with
        threadMemberships := Assoc.modify (userId, id) (fun tm => { tm with following := false }) s.threadMemberships } := by
  simp only [Store.unfollowThread, ThreadDb.unfollowThread, ThreadDb.unfollow, map_eq_ok, bind_eq_ok,
    okOr_eq_ok]
  constructor
  · rintro ⟨_, ⟨userId, huser, id, hid, rfl⟩, rfl⟩
    exact ⟨userId, id, ⟨huser, hid⟩, rfl⟩
  · rintro ⟨userId, id, ⟨huser, hid⟩, rfl⟩
    exact ⟨_, ⟨userId, huser, id, hid, rfl⟩, rfl⟩

def readRow (s : Store) (readAt : Int) (userId id : Uuid) : ThreadMembership :=
  (s.threadMemberships.lookup (userId, id)).elim ⟨true, some readAt, 0, 0⟩ fun tm =>
    { tm with lastReadAt := some readAt, mentionCount := 0, unreadRepliesCount := 0 }

theorem markThreadRead_eq_ok {timestamp utcNow : Int64} : s.markThreadRead codecs auth path timestamp utcNow = .ok s' ↔
    ∃ userId id, (path.parse codecs auth = .ok (userId, id) ∧
      minTimestamp ≤ (fromTimestampMillis timestamp).getD utcNow.toInt ∧ s.MayWrite userId id) ∧
      s' = s.write userId id (readRow s ((fromTimestampMillis timestamp).getD utcNow.toInt) userId id) := by
  simp only [Store.markThreadRead, bind_eq_ok, ensure_eq_ok, upsert_eq_ok]
  constructor
  · rintro ⟨⟨userId, id⟩, hpath, _, hmin, hmay, rfl⟩
    exact ⟨userId, id, ⟨hpath, hmin, hmay⟩, rfl⟩
  · rintro ⟨userId, id, ⟨hpath, hmin, hmay⟩, rfl⟩
    exact ⟨(userId, id), hpath, (), hmin, hmay, rfl⟩

def unreadRow (s : Store) (post userId id : Uuid) : ThreadMembership :=
  (s.threadMemberships.lookup (userId, id)).elim ⟨true, s.beforeReply id post, 0, 1⟩ fun tm =>
    { tm with lastReadAt := s.beforeReply id post, unreadRepliesCount := max tm.unreadRepliesCount 1 }

theorem setThreadUnread_eq_ok : s.setThreadUnread codecs auth path postId = .ok s' ↔
    ∃ post, parseMmOrUuid codecs.parseUuid postId = some post ∧ ∃ userId id,
      (path.parse codecs auth = .ok (userId, id) ∧ s.MayWrite userId id) ∧
        s' = s.write userId id (unreadRow s post userId id) := by
  simp only [Store.setThreadUnread, bind_eq_ok, okOr_eq_ok, upsert_eq_ok]
  constructor
  · rintro ⟨⟨userId, id⟩, hpath, post, hpost, hmay, rfl⟩
    exact ⟨post, hpost, userId, id, ⟨hpath, hmay⟩, rfl⟩
  · rintro ⟨post, hpost, userId, id, ⟨hpath, hmay⟩, rfl⟩
    exact ⟨(userId, id), hpath, post, hpost, hmay, rfl⟩

/-! ### One step -/

variable (isAlphanumeric : Char → Bool) (threadAutoFollow : Bool)

/-- A step keeps the numbers right exactly if it meets its condition. -/
def Decides (neverRead : Bool) (codecs : Codecs) (isAlphanumeric : Char → Bool) (threadAutoFollow : Bool) (s : Store)
    (act : Act) : Prop :=
  Right neverRead ((act.run codecs isAlphanumeric threadAutoFollow s).toOption.getD s) ↔
    Keeps codecs threadAutoFollow neverRead s act

variable {isAlphanumeric threadAutoFollow}

theorem decides_followThread (h : Right neverRead s) :
    Decides neverRead codecs isAlphanumeric threadAutoFollow s (.followThread auth userIdPath threadId) := by
  refine (right_iff_of_writes h (fun s' hs' => .inr (followThread_eq_ok.1 hs'))
    fun u i ha => followThread_eq_ok.2 ⟨u, i, ha, rfl⟩).trans ?_
  have hrow (u i : Uuid) : RightRow neverRead s.db u i (followRow s u i) ↔
      match s.threadMemberships.lookup (u, i) with
      | some tm => tm.unreadRepliesCount = unreadReplies neverRead s.db u i tm.lastReadAt
      | none => unreadReplies neverRead s.db u i none = 0 := by
    unfold RightRow followRow
    cases s.threadMemberships.lookup (u, i) with
    | none =>
      constructor
      · intro hr
        have hzero : (0 : Int) = unreadReplies neverRead s.db u i none := hr rfl
        omega
      · intro hr _
        rw [Option.getD_none, hr]
        rfl
    | some tm => exact ⟨fun hr => hr rfl, fun hr _ => hr⟩
  constructor
  · exact fun hr user huser id hid hmay => (hrow user id).1 (hr user id ⟨huser, hid, hmay⟩)
  · rintro hr user id ⟨huser, hid, hmay⟩
    exact (hrow user id).2 (hr user huser id hid hmay)

theorem decides_unfollowThread (h : Right neverRead s) :
    Decides neverRead codecs isAlphanumeric threadAutoFollow s (.unfollowThread auth userIdPath threadId) := by
  refine ⟨fun _ => trivial, fun _ => ?_⟩
  show Right neverRead ((s.unfollowThread codecs auth userIdPath threadId).toOption.getD s)
  cases hres : s.unfollowThread codecs auth userIdPath threadId with
  | error e => exact h
  | ok s' =>
    obtain ⟨u, i, -, rfl⟩ := unfollowThread_eq_ok.1 hres
    intro u' i' tm hlookup hfollowing
    have hcases := (Assoc.lookup_modify _).symm.trans hlookup
    split at hcases
    · obtain ⟨old, -, rfl⟩ := Option.map_eq_some_iff.1 hcases
      cases hfollowing
    · exact h u' i' tm hcases hfollowing

theorem rightRow_elim {new : ThreadMembership} {update : ThreadMembership → ThreadMembership}
    (hnew : new.following = true) (hupdate : ∀ tm, (update tm).following = tm.following) :
    RightRow neverRead s.db userId id ((s.threadMemberships.lookup (userId, id)).elim new update) ↔
      (s.Following userId id → ((s.threadMemberships.lookup (userId, id)).elim new update).unreadRepliesCount =
        unreadReplies neverRead s.db userId id ((s.threadMemberships.lookup (userId, id)).elim new update).lastReadAt) := by
  unfold RightRow Store.Following
  cases s.threadMemberships.lookup (userId, id) with
  | none => simp [hnew]
  | some tm => simp [hupdate]

theorem decides_markThreadRead {timestamp utcNow : Int64} (h : Right neverRead s) :
    Decides neverRead codecs isAlphanumeric threadAutoFollow s (.markThreadRead auth path timestamp utcNow) := by
  refine (right_iff_of_writes h (fun s' hs' => .inr (markThreadRead_eq_ok.1 hs'))
    fun u i ha => markThreadRead_eq_ok.2 ⟨u, i, ha, rfl⟩).trans ?_
  have hrow (u i : Uuid) (readAt : Int) : RightRow neverRead s.db u i (readRow s readAt u i) ↔
      (s.Following u i → unreadReplies neverRead s.db u i (some readAt) = 0) := by
    unfold readRow
    refine (rightRow_elim ?_ fun _ => ?_).trans (forall_congr' fun _ => ?_)
    · rfl
    · rfl
    cases s.threadMemberships.lookup (u, i) with
    | none => exact ⟨fun hr => Int.ofNat_eq_zero.1 hr.symm, fun hr => (Int.ofNat_eq_zero.2 hr).symm⟩
    | some tm => exact ⟨fun hr => Int.ofNat_eq_zero.1 hr.symm, fun hr => (Int.ofNat_eq_zero.2 hr).symm⟩
  constructor
  · exact fun hr user id hpath hmay hmin => (hrow user id _).1 (hr user id ⟨hpath, hmin, hmay⟩)
  · rintro hr user id ⟨hpath, hmin, hmay⟩
    exact (hrow user id _).2 (hr user id hpath hmay hmin)

theorem decides_setThreadUnread (h : Right neverRead s) :
    Decides neverRead codecs isAlphanumeric threadAutoFollow s (.setThreadUnread auth path postId) := by
  have hrow (post u i : Uuid) : RightRow neverRead s.db u i (unreadRow s post u i) ↔
      (s.Following u i → unreadReplies neverRead s.db u i (s.beforeReply i post) =
        (s.threadMemberships.lookup (u, i)).elim (1 : Int) fun tm => max tm.unreadRepliesCount 1) := by
    unfold unreadRow
    refine (rightRow_elim ?_ fun _ => ?_).trans (forall_congr' fun _ => ?_)
    · rfl
    · rfl
    cases s.threadMemberships.lookup (u, i) with
    | none => exact eq_comm
    | some tm => exact eq_comm
  cases hpost : parseMmOrUuid codecs.parseUuid postId with
  | none =>
    have herror (s' : Store) : s.setThreadUnread codecs auth path postId ≠ .ok s' := by
      intro hs'
      obtain ⟨post, hp, -⟩ := setThreadUnread_eq_ok.1 hs'
      rw [hpost] at hp
      cases hp
    refine ⟨fun _ user id _ post hp => ?_, fun _ => ?_⟩
    · rw [hpost] at hp
      cases hp
    · show Right neverRead ((s.setThreadUnread codecs auth path postId).toOption.getD s)
      cases hres : s.setThreadUnread codecs auth path postId with
      | error e => exact h
      | ok s' => exact absurd hres (herror s')
  | some post =>
    refine (right_iff_of_writes h (f := unreadRow s post)
      (A := fun u i => path.parse codecs auth = .ok (u, i) ∧ s.MayWrite u i)
      (fun s' hs' => ?_) fun u i ha => setThreadUnread_eq_ok.2 ⟨post, hpost, u, i, ha, rfl⟩).trans ?_
    · obtain ⟨post', hp, hwrite⟩ := setThreadUnread_eq_ok.1 hs'
      obtain rfl := Option.some.inj (hpost.symm.trans hp)
      exact .inr hwrite
    constructor
    · intro hr user id hpath post' hp hmay
      obtain rfl := Option.some.inj (hpost.symm.trans hp)
      exact (hrow post user id).1 (hr user id ⟨hpath, hmay⟩)
    · rintro hr user id ⟨hpath, hmay⟩
      exact (hrow post user id).2 (hr user id hpath post hpost hmay)

theorem recount_eq_iff {db : PostDb} {t : Int} :
    min (maxInt4 : Int) (countReplies db id fun reply => decide (t < reply.createdAt)) =
        unreadReplies neverRead db userId id (some t) ↔
      countReplies db id (fun reply => decide (reply.userId = userId) && decide (t < reply.createdAt)) = 0 ∧
        unreadReplies neverRead db userId id (some t) ≤ maxInt4 ∨
      unreadReplies neverRead db userId id (some t) = maxInt4 := by
  have hsplit : countReplies db id (fun reply => decide (t < reply.createdAt)) =
      countReplies db id (fun reply => decide (reply.userId = userId) && decide (t < reply.createdAt)) +
        unreadReplies neverRead db userId id (some t) := by
    refine (countReplies_split id _ fun reply => decide (reply.userId = userId)).trans ?_
    simp only [unreadReplies, isAfter, Option.elim_some, ne_eq, decide_not]
  omega

def recountRow (s : Store) (user : PostUser) (post : Post) (id : Uuid) : ThreadMembership where
  following := true
  lastReadAt := some (post.createdAt - 1000)
  mentionCount := min maxInt4 (countReplies s.db id fun reply =>
    decide (post.createdAt - 1000 < reply.createdAt) && mentions user.username reply.message)
  unreadRepliesCount := min maxInt4 (countReplies s.db id fun reply => decide (post.createdAt - 1000 < reply.createdAt))

theorem decides_setPostUnread {supported : Option Bool} {crtEnabled : Bool} (h : Right neverRead s) :
    Decides neverRead codecs isAlphanumeric threadAutoFollow s
      (.setPostUnread auth userIdPath postId supported crtEnabled) := by
  show Right neverRead
    ((s.setPostUnread codecs threadAutoFollow auth userIdPath postId supported crtEnabled).toOption.getD s) ↔ _
  unfold Store.setPostUnread
  cases hpost : s.unreadPost codecs auth userIdPath postId supported with
  | error e =>
    refine iff_of_true h fun user row post collapsed hp => ?_
    rw [hpost] at hp
    cases hp
  | ok read =>
    obtain ⟨user, row, post, collapsed⟩ := read
    dsimp only [Except.bind]
    cases hthread : Store.unreadThread threadAutoFollow post collapsed crtEnabled with
    | none =>
      refine iff_of_true h fun user' row' post' collapsed' hp id hid => ?_
      rw [hpost] at hp
      cases hp
      rw [hthread] at hid
      cases hid
    | some id =>
      have hupsert (s' : Store) : s.upsert user id (recountRow s row post id) (fun _ => recountRow s row post id) = .ok s' ↔
          s.MayWrite user id ∧ s' = s.write user id (recountRow s row post id) := by
        rw [upsert_eq_ok]
        cases s.threadMemberships.lookup (user, id) <;> rfl
      refine (right_iff_of_writes h (A := fun u i => (u = user ∧ i = id) ∧ s.MayWrite u i)
        (f := fun _ i => recountRow s row post i) (fun s' hs' => ?_) fun u i ha => ?_).trans ?_
      · obtain ⟨hmay, rfl⟩ := (hupsert s').1 hs'
        exact .inr ⟨user, id, ⟨⟨rfl, rfl⟩, hmay⟩, rfl⟩
      · obtain ⟨⟨rfl, rfl⟩, hmay⟩ := ha
        exact (hupsert _).2 ⟨hmay, rfl⟩
      constructor
      · intro hr user' row' post' collapsed' hp id' hid hmay
        rw [hpost] at hp
        cases hp
        obtain rfl := Option.some.inj (hthread.symm.trans hid)
        exact recount_eq_iff.1 (hr user id ⟨⟨rfl, rfl⟩, hmay⟩ rfl)
      · rintro hr u i ⟨⟨rfl, rfl⟩, hmay⟩ -
        exact recount_eq_iff.2 (hr u row post collapsed hpost i hthread hmay)

theorem decides_createPost {call : CreateCall} (h : Right neverRead s) :
    Decides neverRead codecs isAlphanumeric threadAutoFollow s (.createPost call countedAt) := by
  show Right neverRead ((s.createPost codecs isAlphanumeric call countedAt).toOption.getD s) ↔ _
  unfold Store.createPost
  cases hres : s.db.createPost codecs isAlphanumeric call.userId call.channelId call.input call.clientMsgId call.drawn with
  | error e =>
    refine iff_of_true h fun hmay => ?_
    obtain ⟨res, hok⟩ : ∃ res, s.db.createPost codecs isAlphanumeric call.userId call.channelId call.input
      call.clientMsgId call.drawn = .ok res := PostDb.createPost_ok_iff.2 hmay
    rw [hres] at hok
    cases hok
  | ok res =>
    obtain ⟨w, envs⟩ := res
    obtain ⟨hmay, props, rfl⟩ := PostDb.createPost_write hres
    have hcount (u i : Uuid) (lastReadAt : Option Int) :=
      @countReplies_posted s.db call.drawn.id (s.db.newPost call.userId call.channelId call.input call.drawn) props
        countedAt (fun reply => decide (reply.userId ≠ u) && isAfter neverRead lastReadAt reply.createdAt) hmay.2.2.2.2 rfl
        (fun post post' hsame => by rw [hsame.userId, hsame.createdAt]) i
    constructor
    · intro h' _ r hr u tm hlookup hfollowing
      have hnew := (h' u r tm hlookup hfollowing).symm.trans (h u r tm hlookup hfollowing)
      have hsum := hcount u r tm.lastReadAt
      by_contra hne
      obtain ⟨hother, hafter⟩ := not_or.1 hne
      have hunread : (decide (call.userId ≠ u) && isAfter neverRead tm.lastReadAt call.drawn.now.toInt) = true :=
        Bool.and_eq_true_iff.2 ⟨decide_eq_true (Ne.symm hother), Bool.eq_true_of_not_eq_false hafter⟩
      rw [if_pos ⟨hr, hunread⟩] at hsum
      exact absurd (hsum.symm.trans (Int.ofNat.inj hnew)) (Nat.succ_ne_self _)
    · intro hspared u i tm hlookup hfollowing
      have hread : ¬ (call.input.rootPostId = some i ∧
          (decide (call.userId ≠ u) && isAfter neverRead tm.lastReadAt call.drawn.now.toInt) = true) := by
        rintro ⟨hr, hunread⟩
        obtain ⟨hother, hafter⟩ := Bool.and_eq_true_iff.1 hunread
        rcases hspared hmay i hr u tm hlookup hfollowing with hu | ha
        · exact of_decide_eq_true hother hu.symm
        · rw [ha] at hafter
          cases hafter
      have hsum := (hcount u i tm.lastReadAt).trans (congrArg _ (if_neg hread))
      exact (h u i tm hlookup hfollowing).trans (congrArg Int.ofNat hsum.symm)

theorem decides (h : Right neverRead s) (act : Act) :
    Decides neverRead codecs isAlphanumeric threadAutoFollow s act := by
  cases act with
  | createPost call countedAt => exact decides_createPost h
  | followThread auth userId threadId => exact decides_followThread h
  | unfollowThread auth userId threadId => exact decides_unfollowThread h
  | markThreadRead auth path timestamp utcNow => exact decides_markThreadRead h
  | setThreadUnread auth path postId => exact decides_setThreadUnread h
  | setPostUnread auth userId postId supported crtEnabled => exact decides_setPostUnread h

/-! ### Runs -/

/-- Where the numbers of unread replies are right at the start, they stay right throughout a run exactly if every
request meets its condition. -/
theorem right_iff_keeps (codecs : Codecs) (isAlphanumeric : Char → Bool) (threadAutoFollow neverRead : Bool) (s : Store)
    (h : Right neverRead s) (acts : List Act) :
    Run.AllStates (step codecs isAlphanumeric threadAutoFollow) (Right neverRead) s acts ↔
      Run.AllSteps (step codecs isAlphanumeric threadAutoFollow) (Keeps codecs threadAutoFollow neverRead) s acts := by
  obtain ⟨last, hrun⟩ : ∃ last, Run.exec (step codecs isAlphanumeric threadAutoFollow) s acts = some last :=
    Run.exists_exec_of_enabled (fun _ _ => ⟨_, rfl⟩) s acts
  refine Run.allStates_iff_allSteps (I := fun _ => True) (fun _ _ _ _ _ => trivial) (fun s act s' _ hright hs => ?_)
    trivial h hrun
  obtain rfl := Option.some.inj hs
  exact decides hright act

/-- The post `7` of user `2`, whom user `3` follows. -/
def oneThread : Store where
  db := { ThreadRun.onePost with
    users := AList.insert 3 ⟨"member", "bob", none⟩ ThreadRun.onePost.users
    members := AList.insert (5, 3) () ThreadRun.onePost.members }
  threadMemberships := AList.insert (3, 7) ⟨true, some 0, 0, 0⟩ ∅

theorem oneThread_right (neverRead : Bool) : Right neverRead oneThread := by
  intro userId id tm hlookup
  rcases Assoc.lookup_insert_cases hlookup with ⟨hk, rfl⟩ | ⟨-, h⟩
  · obtain ⟨rfl, rfl⟩ := Prod.mk.inj hk
    intro _
    cases neverRead <;> decide
  · cases h

def answer (userId : Uuid) : Act := .createPost ⟨userId, 5, ⟨"b", some 7, none, [], none⟩, none, ⟨8, 1, 1⟩⟩ 1

/-- The follower answers and marks the thread as read. -/
theorem own_answer_right : Run.AllStates (step ThreadRun.plainCodecs Char.isAlphanum true) (Right false) oneThread
    [answer 3, .markThreadRead ⟨3, false⟩ ⟨"me", (9 : Uuid).hyphenated, (7 : Uuid).hyphenated⟩ 1 1] := by
  refine (right_iff_keeps _ _ _ _ _ (oneThread_right false) _).2 ?_
  refine Run.allSteps_cons.2 ⟨fun _ r hr u tm hlookup _ => ?_, fun s hs => ?_⟩
  · rcases Assoc.lookup_insert_cases hlookup with ⟨hk, -⟩ | ⟨-, h⟩
    · exact .inl (Prod.mk.inj hk).1
    · cases h
  · obtain rfl := Option.some.inj hs
    refine Run.allSteps_cons.2 ⟨fun user id hpath _ _ _ => ?_, fun _ _ => Run.allSteps_nil⟩
    have hparse : ThreadPath.parse ThreadRun.plainCodecs ⟨3, false⟩
        ⟨"me", (9 : Uuid).hyphenated, (7 : Uuid).hyphenated⟩ = .ok (3, 7) := by decide +kernel
    rw [hparse] at hpath
    cases hpath
    decide +kernel

/-- The answer of someone else is not counted. -/
theorem answer_not_counted : Right false oneThread ∧ Right true oneThread ∧
    ¬ Run.AllStates (step ThreadRun.plainCodecs Char.isAlphanum true) (Right false) oneThread [answer 2] ∧
    ¬ Run.AllStates (step ThreadRun.plainCodecs Char.isAlphanum true) (Right true) oneThread [answer 2] := by
  have hwrong (neverRead : Bool) :
      ¬ Run.AllStates (step ThreadRun.plainCodecs Char.isAlphanum true) (Right neverRead) oneThread [answer 2] := by
    intro h
    have hzero := h [answer 2] [] rfl _ rfl 3 7 ⟨true, some 0, 0, 0⟩ rfl rfl
    revert hzero
    cases neverRead <;> decide
  exact ⟨oneThread_right false, oneThread_right true, hwrong false, hwrong true⟩

end ThreadCounts

end Rustchat
