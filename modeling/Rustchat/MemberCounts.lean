import Rustchat.Posts
import Rustchat.Unreads

/-!
# Counts of a channel member (`api/v4/channels/utils.rs`, `api/v4/channels/unread.rs`)

What a member has read of a channel and what not is counted by a query each. That of the member rows joins the posts of
the channel to the member, so that it sees one row even where there is no post, and takes it for a live root post.
`MemberCounts.Tables.views_agree_iff` says that the counts agree exactly in channels that have a post.
-/

namespace Rustchat

namespace MemberCounts

open Unreads (PostRow)

/-- A row of `channel_members`, without its keys. -/
structure Member where
  role : String
  notifyProps : Json
  lastViewedAt : Option Int
  lastUpdateAt : Option Int
  createdAt : Int

structure Tables where
  postPriorityEnabled : Bool
  -- the team of each channel
  teams : Assoc Uuid Uuid
  -- by channel and user
  members : Assoc (Uuid × Uuid) Member
  usernames : Assoc Uuid String
  -- `last_read_message_id`, by user and channel
  reads : Assoc (Uuid × Uuid) (Option Int)
  posts : List PostRow

structure ChannelMemberCompatRow where
  channelId : Uuid
  userId : Uuid
  role : String
  notifyProps : Json
  lastViewedAt : Option Int
  lastUpdateAt : Int
  msgCount : Int
  mentionCount : Int
  mentionCountRoot : Int
  urgentMentionCount : Int
  msgCountRoot : Int

structure ChannelUnread where
  teamId : String
  channelId : String
  msgCount : Int
  mentionCount : Int
  mentionCountRoot : Int
  msgCountRoot : Int
  urgentMentionCount : Int

/-- The rows that `LEFT JOIN` puts beside one row: all, or else one without columns. -/
def leftJoin {α : Type*} : List α → List (Option α)
  | [] => [none]
  | a :: rows => (a :: rows).map some

/-- `COUNT(*) FILTER (WHERE …)` -/
def count {α : Type*} (p : α → Bool) (rows : List α) : Int := (rows.countP p : ℕ)

-- the conditions on a joined row: a missing column is null, and compares with nothing

def isLive (p : Option PostRow) : Bool := p.all fun p => !p.deleted

def isRoot (p : Option PostRow) : Bool := p.all fun p => p.rootPostId.isNone

def isAbove (position : Int) (p : Option PostRow) : Bool := p.any fun p => decide (position < p.seq)

def mentions (username : String) (p : Option PostRow) : Bool := p.any (·.mentions username)

def urgent (username : String) (p : Option PostRow) : Bool := p.any (·.urgent username)

namespace Tables

variable (db : Tables)

def channelPosts (channelId : Uuid) : List PostRow := db.posts.filter fun p => p.channelId = channelId

/-- The `last_read_message_id` of the row, or 0. -/
def position (userId channelId : Uuid) : Int := ((db.reads.lookup (userId, channelId)).join).getD 0

def compatRow (channelId userId : Uuid) (member : Member) (username : String) : ChannelMemberCompatRow :=
  let posts := leftJoin (db.channelPosts channelId)
  let unread (p : Option PostRow) := isLive p && isAbove (db.position userId channelId) p
  { channelId := channelId
    userId := userId
    role := member.role
    notifyProps := member.notifyProps
    lastViewedAt := member.lastViewedAt
    lastUpdateAt := member.lastUpdateAt.getD member.createdAt
    msgCount := max (count isLive posts - count unread posts) 0
    mentionCount := count (fun p => unread p && mentions username p) posts
    mentionCountRoot := count (fun p => unread p && isRoot p && mentions username p) posts
    urgentMentionCount := count (fun p => unread p && urgent username p) posts
    msgCountRoot :=
      max (count (fun p => isLive p && isRoot p) posts - count (fun p => unread p && isRoot p) posts) 0 }

def fetchChannelMemberCompatRows (channelId : Uuid) (userIds : Option (List Uuid)) :
    List ChannelMemberCompatRow :=
  let rows := db.members.entries.filterMap fun e =>
    if e.1.1 = channelId ∧ userIds.all (e.1.2 ∈ ·) then
      (db.usernames.lookup e.1.2).map (db.compatRow channelId e.1.2 e.2)
    else none
  rows.mergeSort fun a b => decide (a.userId ≤ b.userId)

variable (codecs : Codecs)

def getChannelUnread (userId : Uuid) (channelId : String) : Except AppError ChannelUnread :=
  (okOr (parseMmOrUuid codecs.parseUuid channelId) (.badRequest "Invalid channel_id")).bind fun channelId =>
  (okOr (db.members.lookup (channelId, userId)) (.forbidden "Not a member of this channel")).bind fun _ =>
  (okOr (db.teams.lookup channelId) .database).map fun teamId =>
    let username := (db.usernames.lookup userId).getD ""
    let posts := (db.channelPosts channelId).map some
    let unread (p : Option PostRow) := isLive p && isAbove (db.position userId channelId) p
    { teamId := encodeMmId teamId
      channelId := encodeMmId channelId
      msgCount := count unread posts
      mentionCount := count (fun p => unread p && mentions username p) posts
      mentionCountRoot := count (fun p => unread p && isRoot p && mentions username p) posts
      msgCountRoot := count (fun p => unread p && isRoot p) posts
      urgentMentionCount :=
        if db.postPriorityEnabled then count (fun p => unread p && urgent username p) posts else 0 }

def livePosts (channelId : Uuid) : List PostRow :=
  db.posts.filter fun p => p.channelId = channelId ∧ p.deleted = false

def readPosts (userId channelId : Uuid) : List PostRow :=
  (db.livePosts channelId).filter fun p => p.seq ≤ db.position userId channelId

def roots (posts : List PostRow) : List PostRow := posts.filter fun p => p.rootPostId.isNone

/-- What is read is counted right, and with what is not read it makes all. -/
structure Agrees (row : ChannelMemberCompatRow) (unread : ChannelUnread) : Prop where
  msgCount : row.msgCount = (db.readPosts row.userId row.channelId).length
  total : row.msgCount + unread.msgCount = (db.livePosts row.channelId).length
  msgCountRoot : row.msgCountRoot = (roots (db.readPosts row.userId row.channelId)).length
  totalRoot : row.msgCountRoot + unread.msgCountRoot = (roots (db.livePosts row.channelId)).length

/-! ### Counting -/

variable {db}

theorem count_map_some (p : Option PostRow → Bool) (rows : List PostRow) :
    count p (rows.map some) = (rows.filter fun row => p (some row)).length := by
  rw [count, List.countP_map, List.countP_eq_length_filter]
  rfl

theorem leftJoin_of_ne_nil {α : Type*} {rows : List α} (h : rows ≠ []) : leftJoin rows = rows.map some := by
  cases rows with
  | nil => exact absurd rfl h
  | cons a rows => rfl

theorem length_split (position : Int) (p : PostRow → Bool) (rows : List PostRow) :
    (rows.filter fun row => p row && decide (row.seq ≤ position)).length +
      (rows.filter fun row => p row && decide (position < row.seq)).length = (rows.filter p).length := by
  induction rows with
  | nil => rfl
  | cons row rows ih =>
    cases hp : p row with
    | false => simp [hp, ih]
    | true =>
      by_cases hle : row.seq ≤ position
      · have hlt : ¬ position < row.seq := by omega
        simp [hp, hle, hlt]
        omega
      · have hlt : position < row.seq := by omega
        simp [hp, hle, hlt]
        omega

theorem length_livePosts (db : Tables) (channelId : Uuid) :
    ((db.livePosts channelId).length : Int) = count isLive ((db.channelPosts channelId).map some) := by
  rw [count_map_some]
  unfold livePosts channelPosts
  rw [List.filter_filter]
  congr 3
  funext p
  cases hd : p.deleted <;> simp [isLive, hd]

theorem length_rootLivePosts (db : Tables) (channelId : Uuid) : ((roots (db.livePosts channelId)).length : Int) =
    count (fun p => isLive p && isRoot p) ((db.channelPosts channelId).map some) := by
  rw [count_map_some]
  unfold roots livePosts channelPosts
  rw [List.filter_filter, List.filter_filter]
  congr 3
  funext p
  cases hd : p.deleted <;> cases hr : p.rootPostId <;> simp [isLive, isRoot, hd, hr]

variable {userId channelId : Uuid}

theorem length_readPosts (db : Tables) (userId channelId : Uuid) : ((db.readPosts userId channelId).length : Int) +
    count (fun p => isLive p && isAbove (db.position userId channelId) p) ((db.channelPosts channelId).map some) =
      (db.livePosts channelId).length := by
  have hsplit := length_split (db.position userId channelId) (fun _ => true) (db.livePosts channelId)
  have hunread : count (fun p => isLive p && isAbove (db.position userId channelId) p)
      ((db.channelPosts channelId).map some) =
        ((db.livePosts channelId).filter fun p => true && decide (db.position userId channelId < p.seq)).length := by
    rw [count_map_some]
    unfold livePosts channelPosts
    rw [List.filter_filter, List.filter_filter]
    congr 3
    funext p
    cases hd : p.deleted <;> simp [isLive, isAbove, hd, Bool.and_comm]
  rw [hunread]
  simp only [List.filter_true, Bool.true_and] at hsplit ⊢
  unfold readPosts
  omega

theorem length_rootReadPosts (db : Tables) (userId channelId : Uuid) : ((roots (db.readPosts userId channelId)).length : Int) +
    count (fun p => isLive p && isAbove (db.position userId channelId) p && isRoot p)
      ((db.channelPosts channelId).map some) = (roots (db.livePosts channelId)).length := by
  have hsplit := length_split (db.position userId channelId) (fun p => p.rootPostId.isNone) (db.livePosts channelId)
  have hunread : count (fun p => isLive p && isAbove (db.position userId channelId) p && isRoot p)
      ((db.channelPosts channelId).map some) = ((db.livePosts channelId).filter fun p =>
        p.rootPostId.isNone && decide (db.position userId channelId < p.seq)).length := by
    rw [count_map_some]
    unfold livePosts channelPosts
    rw [List.filter_filter, List.filter_filter]
    congr 3
    funext p
    cases hd : p.deleted <;> cases hr : p.rootPostId <;> simp [isLive, isAbove, isRoot, hd, hr, Bool.and_comm]
  have hread : (roots (db.readPosts userId channelId)) = (db.livePosts channelId).filter fun p =>
      p.rootPostId.isNone && decide (p.seq ≤ db.position userId channelId) := by
    unfold roots readPosts
    rw [List.filter_filter]
  rw [hunread, hread]
  unfold roots
  omega

/-! ### The views -/

variable {codecs} {userIds : Option (List Uuid)} {row : ChannelMemberCompatRow}

theorem mem_fetch (h : row ∈ db.fetchChannelMemberCompatRows channelId userIds) :
    ∃ userId member username, db.members.lookup (channelId, userId) = some member ∧
      db.usernames.lookup userId = some username ∧ row = db.compatRow channelId userId member username := by
  have hrow := (List.mergeSort_perm _ _).mem_iff.1 h
  obtain ⟨⟨⟨c, userId⟩, member⟩, he, hrow⟩ := List.mem_filterMap.1 hrow
  split at hrow
  · next hc =>
    obtain ⟨rfl, -⟩ := hc
    obtain ⟨username, husername, rfl⟩ := Option.map_eq_some_iff.1 hrow
    exact ⟨userId, member, username, Assoc.mem_entries_iff.1 he, husername, rfl⟩
  · cases hrow

theorem msgCount_of_posts (userId : Uuid) (member : Member) (username : String) (h : db.channelPosts channelId ≠ []) :
    (db.compatRow channelId userId member username).msgCount = (db.readPosts userId channelId).length ∧
    (db.compatRow channelId userId member username).msgCountRoot =
      (roots (db.readPosts userId channelId)).length := by
  have hmsg := db.length_readPosts userId channelId
  have hroot := db.length_rootReadPosts userId channelId
  rw [length_livePosts] at hmsg
  rw [length_rootLivePosts] at hroot
  unfold compatRow
  rw [leftJoin_of_ne_nil h]
  dsimp only
  omega

theorem msgCount_of_no_posts (userId : Uuid) (member : Member) (username : String) (h : db.channelPosts channelId = []) :
    (db.compatRow channelId userId member username).msgCount = 1 := by
  unfold compatRow
  rw [h]
  rfl

/-- The member row and the unread counts of a channel agree exactly if the channel has a post, deleted or not. -/
theorem views_agree_iff (codecs : Codecs) (db : Tables) (channelId : Uuid) (userIds : Option (List Uuid))
    (row : ChannelMemberCompatRow) (path : String)
    (hrow : row ∈ db.fetchChannelMemberCompatRows channelId userIds)
    (hpath : parseMmOrUuid codecs.parseUuid path = some channelId) (hteam : channelId ∈ db.teams) :
    ∃ unread, db.getChannelUnread codecs row.userId path = .ok unread ∧
      (db.Agrees row unread ↔ ∃ p ∈ db.posts, p.channelId = channelId) := by
  obtain ⟨userId, member, username, hmember, -, rfl⟩ := mem_fetch hrow
  obtain ⟨teamId, hteam⟩ := Option.isSome_iff_exists.1 (AList.lookup_isSome.2 hteam)
  have hposts : (∃ p ∈ db.posts, p.channelId = channelId) ↔ db.channelPosts channelId ≠ [] := by
    rw [ne_eq, channelPosts, List.filter_eq_nil_iff]
    simp
  have hget : ∃ unread, db.getChannelUnread codecs userId path = .ok unread ∧
      unread.msgCount = count (fun p => isLive p && isAbove (db.position userId channelId) p)
        ((db.channelPosts channelId).map some) ∧
      unread.msgCountRoot = count (fun p => isLive p && isAbove (db.position userId channelId) p && isRoot p)
        ((db.channelPosts channelId).map some) := by
    unfold getChannelUnread
    rw [hpath]
    dsimp only [okOr, Option.elim_some, Except.bind]
    rw [hmember, hteam]
    exact ⟨_, rfl, rfl, rfl⟩
  obtain ⟨unread, hok, hmsgCount, hmsgCountRoot⟩ := hget
  refine ⟨unread, hok, ?_⟩
  rw [hposts]
  constructor
  · intro hagrees hnone
    have hone := (msgCount_of_no_posts userId member username hnone).symm.trans hagrees.msgCount
    have hnil := db.length_readPosts userId channelId
    rw [length_livePosts, hnone] at hnil
    have hzero : ((db.readPosts userId channelId).length : Int) + 0 = 0 := hnil
    have hrow : (1 : Int) = (db.readPosts userId channelId).length := hone
    omega
  · intro hsome
    obtain ⟨hmsg, hroot⟩ := msgCount_of_posts userId member username hsome
    have hall := db.length_readPosts userId channelId
    have hallRoot := db.length_rootReadPosts userId channelId
    exact {
      msgCount := hmsg
      total := by rw [hmsg, hmsgCount]; exact hall
      msgCountRoot := hroot
      totalRoot := by rw [hroot, hmsgCountRoot]; exact hallRoot }

/-- The channel `5` of the member `2`, who has read up to its first post. -/
def onePost : Tables where
  postPriorityEnabled := false
  teams := AList.insert 5 9 ∅
  members := AList.insert (5, 2) ⟨"member", .obj [], none, none, 0⟩ ∅
  usernames := AList.insert 2 "ann" ∅
  reads := AList.insert (2, 5) (some 1) ∅
  posts := [⟨7, 5, 2, none, 1, "a", 0, false⟩]

/-- The channel without the post and without a position. -/
def noPost : Tables := { onePost with reads := ∅, posts := [] }

theorem onePost_agrees : ∃ unread, onePost.getChannelUnread ⟨Uuid.ofHyphenated, fun _ => none, fun _ => "", id⟩ 2
    (5 : Uuid).hyphenated = .ok unread ∧
      onePost.Agrees (onePost.compatRow 5 2 ⟨"member", .obj [], none, none, 0⟩ "ann") unread := by
  obtain ⟨unread, hok, hagrees⟩ := views_agree_iff ⟨Uuid.ofHyphenated, fun _ => none, fun _ => "", id⟩ onePost 5 none
    (onePost.compatRow 5 2 ⟨"member", .obj [], none, none, 0⟩ "ann") (5 : Uuid).hyphenated
    ((List.mergeSort_perm _ _).mem_iff.2 (List.mem_singleton_self _)) (by decide +kernel) (by decide)
  exact ⟨unread, hok, hagrees.2 (by decide)⟩

/-- The member of an empty channel has read one post of none. -/
theorem noPost_disagrees : noPost.compatRow 5 2 ⟨"member", .obj [], none, none, 0⟩ "ann" ∈
      noPost.fetchChannelMemberCompatRows 5 none ∧
    (noPost.compatRow 5 2 ⟨"member", .obj [], none, none, 0⟩ "ann").msgCount = 1 ∧
    (noPost.compatRow 5 2 ⟨"member", .obj [], none, none, 0⟩ "ann").msgCountRoot = 1 ∧
    noPost.readPosts 2 5 = [] ∧ noPost.livePosts 5 = [] ∧
    ∀ unread, ¬ noPost.Agrees (noPost.compatRow 5 2 ⟨"member", .obj [], none, none, 0⟩ "ann") unread := by
  refine ⟨(List.mergeSort_perm _ _).mem_iff.2 (List.mem_singleton_self _), rfl, rfl, rfl, rfl,
    fun unread h => ?_⟩
  exact absurd h.msgCount (by decide)

end Tables

end MemberCounts

end Rustchat
