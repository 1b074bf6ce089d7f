import Rustchat.Lib.Page
import Rustchat.Lib.Prog
import Rustchat.UnreadSync

/-!
# Unread counts and their cache (`services/unreads.rs`)

What is unread is computed from the read positions and the posts of the database. Redis keeps the counts, once as numbers
of the first version and once as hashes of the second, and a set for every user whose counts are to be computed anew.
Every operation is a program of single statements and commands. Memberships, threads and settings do not change, and
statements and commands that can be sent succeed; whether a connection to Redis is had is said by the step. Commands that
a transaction would not undo are never in one, so each is a step of its own.
-/

namespace Rustchat.Unreads

def v2SchemaVersion : Int := 2

structure UnreadConfig where
  unreadV2Enabled : Bool
  postPriorityEnabled : Bool

/-- A row of `channel_members`. -/
structure ChannelMember where
  -- milliseconds
  lastViewedAt : Option Int
  manuallyUnread : Bool
  notifyProps : Json

/-- A row of `posts`. -/
structure PostRow where
  id : Uuid
  channelId : Uuid
  userId : Uuid
  rootPostId : Option Uuid
  seq : Int
  message : String
  createdAt : Int
  -- `deleted_at` is set
  deleted : Bool

/-- A row of `thread_memberships`. -/
structure ThreadMembership where
  userId : Uuid
  postId : Uuid
  following : Bool
  lastReadAt : Option Int
  mentionCount : Int
  unreadRepliesCount : Int

/-- What the operations read and none of them changes. -/
structure Tables where
  config : UnreadConfig
  -- the team of each channel
  teams : Assoc Uuid Uuid
  -- by channel and user
  members : Assoc (Uuid × Uuid) ChannelMember
  usernames : Assoc Uuid String
  threads : List ThreadMembership

/-- The keys of Redis for the counts of a user, which are a number (`rc:unread:` and `rc:unread_team:`) and a hash
(`rc:unread:v2:uc:` and `rc:unread:v2:ut:`). -/
inductive CountKey
  | channel (userId channelId : Uuid)
  | team (userId teamId : Uuid)
deriving DecidableEq

structure Store where
  posts : List PostRow
  -- `last_read_message_id`, by user and channel; a row without a position is like no row
  reads : Assoc (Uuid × Uuid) Int
  counts : Assoc CountKey Int
  hashes : Assoc CountKey (Assoc String Int)
  dirty : Assoc Uuid (List String)
  lastMsgIds : Assoc Uuid Int
  sent : List WsEnvelope

/-- `LIKE`, with `%` for any text, `_` for any character and an escape character. -/
def likeChars : List Char → List Char → Bool
  | [], cs => cs.isEmpty
  | '%' :: p, cs => cs.tails.any (likeChars p)
  | '_' :: p, _ :: cs => likeChars p cs
  | '\\' :: x :: p, c :: cs => x == c && likeChars p cs
  | x :: p, c :: cs => x != '\\' && x == c && likeChars p cs
  | _ :: _, [] => false

def like (pattern text : String) : Bool := likeChars pattern.toList text.toList

theorem likeChars_any {p cs : List Char} : likeChars ('%' :: p) cs = true ↔ ∃ s, s <:+ cs ∧ likeChars p s = true := by
  show cs.tails.any (likeChars p) = true ↔ _
  rw [List.any_eq_true]
  exact exists_congr fun s => and_congr_left fun _ => List.mem_tails ..

theorem likeChars_escaped {p cs : List Char} {x c : Char} :
    likeChars ('\\' :: x :: p) (c :: cs) = true ↔ x = c ∧ likeChars p cs = true := by
  rw [likeChars.eq_4, Bool.and_eq_true, beq_iff_eq]

theorem likeChars_plain {p cs : List Char} {x c : Char} (h : x ∉ ['%', '_', '\\']) :
    likeChars (x :: p) (c :: cs) = true ↔ x = c ∧ likeChars p cs = true := by
  simp only [List.mem_cons, List.not_mem_nil, or_false, not_or] at h
  obtain ⟨hany, hone, hescape⟩ := h
  rw [likeChars.eq_5 _ _ _ _ hany hone fun _ _ hx _ => hescape hx, Bool.and_eq_true, Bool.and_eq_true,
    bne_iff_ne, beq_iff_eq, and_iff_right hescape]

theorem likeChars_nil {p : List Char} {x : Char} (h : x ≠ '%') : likeChars (x :: p) [] = false :=
  likeChars.eq_6 _ _ h

def PostRow.mentions (username : String) (p : PostRow) : Bool :=
  like ("%@" ++ username ++ "%") p.message || like "%@all%" p.message || like "%@channel%" p.message

def PostRow.urgent (username : String) (p : PostRow) : Bool := p.mentions username && like "%@here%" p.message

structure Counters where
  msgCount : Int
  msgCountRoot : Int
  mentionCount : Int
  mentionCountRoot : Int
  urgentMentionCount : Int
deriving DecidableEq

def count (p : PostRow → Bool) (posts : List PostRow) : Int := (posts.countP p : ℕ)

def Counters.ofPosts (username : String) (posts : List PostRow) : Counters where
  msgCount := count (fun _ => true) posts
  msgCountRoot := count (·.rootPostId.isNone) posts
  mentionCount := count (·.mentions username) posts
  mentionCountRoot := count (fun p => p.rootPostId.isNone && p.mentions username) posts
  urgentMentionCount := count (·.urgent username) posts

namespace Store

variable (s : Store)

/-- `COALESCE(cr.last_read_message_id, 0)` -/
def position (userId channelId : Uuid) : Int := (s.reads.lookup (userId, channelId)).getD 0

def unreadPosts (userId channelId : Uuid) : List PostRow :=
  s.posts.filter fun p => p.channelId = channelId ∧ p.deleted = false ∧ s.position userId channelId < p.seq

def unreadCount (userId channelId : Uuid) : Int := (s.unreadPosts userId channelId).length

/-- `MAX(seq)` of a channel, with or without what is deleted. -/
def maxSeq (channelId : Uuid) (undeleted : Bool) : Option Int :=
  ((s.posts.filter fun p => p.channelId = channelId ∧ (undeleted = true → p.deleted = false)).map (·.seq)).max?

end Store

structure ChannelRow where
  lastViewedAt : Option Int
  manuallyUnread : Bool
  counters : Counters

structure TeamChannelRow where
  notifyProps : Json
  counters : Counters

structure ThreadCounts where
  threadCount : Int
  mentionCount : Int
  urgentMentionCount : Int

namespace Tables

variable (db : Tables) (s : Store)

def membersOf (channelId : Uuid) : List Uuid :=
  db.members.keys.filterMap fun k => if k.1 = channelId then some k.2 else none

def channelsOf (userId : Uuid) : List (Uuid × Uuid) :=
  db.members.keys.filterMap fun k => if k.2 = userId then (db.teams.lookup k.1).map (k.1, ·) else none

def channelUnread (userId channelId : Uuid) (username : String) : Option ChannelRow :=
  (db.members.lookup (channelId, userId)).map fun m =>
    ⟨m.lastViewedAt, m.manuallyUnread, .ofPosts username (s.unreadPosts userId channelId)⟩

def teamChannels (userId teamId : Uuid) (username : String) : List TeamChannelRow :=
  db.members.entries.filterMap fun e =>
    if e.1.2 = userId ∧ db.teams.lookup e.1.1 = some teamId then
      some ⟨e.2.notifyProps, .ofPosts username (s.unreadPosts userId e.1.1)⟩
    else none

def followedThreads (userId teamId : Uuid) : List ThreadMembership :=
  db.threads.filter fun tm => tm.userId = userId ∧ tm.following = true ∧
    ((s.posts.find? fun p => p.id = tm.postId).any fun p =>
      p.rootPostId.isNone && !p.deleted && db.teams.lookup p.channelId == some teamId)

def urgentReplies (tm : ThreadMembership) (username : String) : Int :=
  count (fun rp => decide (rp.rootPostId = some tm.postId ∧ rp.deleted = false ∧
    ∀ readAt ∈ tm.lastReadAt, readAt < rp.createdAt) && rp.urgent username) s.posts

def teamThreads (userId teamId : Uuid) (username : String) : ThreadCounts :=
  let threads := db.followedThreads s userId teamId
  { threadCount := (threads.countP fun tm => decide (0 < tm.unreadRepliesCount ∨ 0 < tm.mentionCount) : ℕ)
    mentionCount := (threads.map (·.mentionCount)).sum
    urgentMentionCount := (threads.map fun tm => urgentReplies s tm username).sum }

end Tables

inductive UnreadAct
  | insertPost (post : PostRow)
  | deletePost (id : Uuid)
  | selectTeam (channelId : Uuid)
  | selectMembers (channelId : Uuid)
  | selectUserChannels (userId : Uuid)
  | selectUsername (userId : Uuid)
  | selectMaxSeq (channelId : Uuid) (undeleted : Bool)
  | upsertRead (userId channelId : Uuid) (seq : Int)
  | selectChannelUnread (userId channelId : Uuid) (username : String)
  | selectTeamChannels (userId teamId : Uuid) (username : String)
  | selectTeamThreads (userId teamId : Uuid) (username : String)
  -- `state.redis.get()`
  | connect
  | get (key : CountKey)
  | set (key : CountKey) (n : Int)
  | del (key : CountKey)
  | incr (key : CountKey)
  | hmget (key : CountKey) (fields : List String)
  | hset (key : CountKey) (values : List (String × Int))
  | hincrby (key : CountKey) (field : String)
  | delHash (key : CountKey)
  | saddDirty (userId : Uuid) (marker : String)
  | delDirty (userId : Uuid)
  | setLastMsgId (channelId : Uuid) (seq : Int)
  | broadcast (env : WsEnvelope)

@[reducible] def UnreadAct.Res : UnreadAct → Type
  | insertPost _ => Option Unit
  | deletePost _ => Unit
  | selectTeam _ => Option Uuid
  | selectMembers _ => List Uuid
  | selectUserChannels _ => List (Uuid × Uuid)
  | selectUsername _ => Option String
  | selectMaxSeq _ _ => Option Int
  | upsertRead _ _ _ => Option Unit
  | selectChannelUnread _ _ _ => Option ChannelRow
  | selectTeamChannels _ _ _ => List TeamChannelRow
  | selectTeamThreads _ _ _ => ThreadCounts
  | connect => Except String Unit
  | get _ => Option Int
  | hmget _ _ => List (Option Int)
  | _ => Unit

namespace Store

variable (db : Tables) (s : Store)

/-- A post is refused if its id is taken or there is no such channel. -/
def insertPost (post : PostRow) : Option Unit × Store :=
  if post.channelId ∈ db.teams ∧ ∀ p ∈ s.posts, p.id ≠ post.id then
    (some (), { s with posts := s.posts ++ [{ post with deleted := false }] })
  else (none, s)

def deletePost (id : Uuid) : Store :=
  { s with posts := s.posts.map fun p => if p.id = id then { p with deleted := true } else p }

/-- A position is refused if there is no such channel. -/
def upsertRead (userId channelId : Uuid) (seq : Int) : Option Unit × Store :=
  if channelId ∈ db.teams then (some (), { s with reads := s.reads.insert (userId, channelId) seq }) else (none, s)

def incr (key : CountKey) : Store :=
  { s with counts := s.counts.insert key ((s.counts.lookup key).getD 0 + 1) }

def hash (key : CountKey) : Assoc String Int := (s.hashes.lookup key).getD ∅

def hset (key : CountKey) (values : List (String × Int)) : Store :=
  { s with hashes := s.hashes.insert key (values.foldl (fun hash v => hash.insert v.1 v.2) (s.hash key)) }

def hincrby (key : CountKey) (field : String) : Store :=
  { s with hashes := s.hashes.insert key ((s.hash key).insert field (((s.hash key).lookup field).getD 0 + 1)) }

def saddDirty (userId : Uuid) (marker : String) : Store :=
  let markers := (s.dirty.lookup userId).getD []
  { s with dirty := s.dirty.insert userId (if marker ∈ markers then markers else marker :: markers) }

def send (env : WsEnvelope) : Store := { s with sent := s.sent ++ [env] }

def perform (redis : Except String Unit) : (act : UnreadAct) → Store → act.Res × Store
  | .insertPost post, s => s.insertPost db post
  | .deletePost id, s => ((), s.deletePost id)
  | .selectTeam channelId, s => (db.teams.lookup channelId, s)
  | .selectMembers channelId, s => (db.membersOf channelId, s)
  | .selectUserChannels userId, s => (db.channelsOf userId, s)
  | .selectUsername userId, s => (db.usernames.lookup userId, s)
  | .selectMaxSeq channelId undeleted, s => (s.maxSeq channelId undeleted, s)
  | .upsertRead userId channelId seq, s => s.upsertRead db userId channelId seq
  | .selectChannelUnread userId channelId username, s => (db.channelUnread s userId channelId username, s)
  | .selectTeamChannels userId teamId username, s => (db.teamChannels s userId teamId username, s)
  | .selectTeamThreads userId teamId username, s => (db.teamThreads s userId teamId username, s)
  | .connect, s => (redis, s)
  | .get key, s => (s.counts.lookup key, s)
  | .set key n, s => ((), { s with counts := s.counts.insert key n })
  | .del key, s => ((), { s with counts := s.counts.erase key })
  | .incr key, s => ((), s.incr key)
  | .hmget key fields, s => (fields.map (s.hash key).lookup, s)
  | .hset key values, s => ((), s.hset key values)
  | .hincrby key field, s => ((), s.hincrby key field)
  | .delHash key, s => ((), { s with hashes := s.hashes.erase key })
  | .saddDirty userId marker, s => ((), s.saddDirty userId marker)
  | .delDirty userId, s => ((), { s with dirty := s.dirty.erase userId })
  | .setLastMsgId channelId seq, s => ((), { s with lastMsgIds := s.lastMsgIds.insert channelId seq })
  | .broadcast env, s => ((), s.send env)

end Store

abbrev UnreadProg := ExceptT AppError (Prog UnreadAct UnreadAct.Res)

def query (act : UnreadAct) : UnreadProg act.Res := ExceptT.lift (Prog.call act)

/-- `fetch_one` of the team of a channel -/
def fetchTeamId (channelId : Uuid) : UnreadProg Uuid := do
  match ← query (.selectTeam channelId) with
  | none => throw .database
  | some teamId => pure teamId

def fetchUsername (userId : Uuid) : UnreadProg String := do
  match ← query (.selectUsername userId) with
  | none => pure ""
  | some username => pure username

def fetchUserChannels (userId : Uuid) : UnreadProg (List (Uuid × Uuid)) := query (.selectUserChannels userId)

structure ChannelUnreadV2 where
  channelId : Uuid
  msgCount : Int
  msgCountRoot : Int
  mentionCount : Int
  mentionCountRoot : Int
  urgentMentionCount : Int
  lastViewedAt : Int
  manuallyUnread : Bool
  version : Int
deriving DecidableEq

structure TeamUnreadV2 where
  teamId : Uuid
  msgCount : Int
  mentionCount : Int
  mentionCountRoot : Int
  msgCountRoot : Int
  threadCount : Int
  threadMentionCount : Int
  threadUrgentMentionCount : Int
  version : Int
deriving DecidableEq

def ChannelUnreadV2.ofRow (config : UnreadConfig) (channelId : Uuid) : Option ChannelRow → ChannelUnreadV2
  | none => ⟨channelId, 0, 0, 0, 0, 0, 0, false, v2SchemaVersion⟩
  | some row =>
    { channelId
      msgCount := row.counters.msgCount
      msgCountRoot := row.counters.msgCountRoot
      mentionCount := row.counters.mentionCount
      mentionCountRoot := row.counters.mentionCountRoot
      urgentMentionCount := if config.postPriorityEnabled then row.counters.urgentMentionCount else 0
      lastViewedAt := row.lastViewedAt.getD 0
      manuallyUnread := row.manuallyUnread
      version := v2SchemaVersion }

def markUnread (notifyProps : Json) : String := ((notifyProps.get? "mark_unread").bind Json.asStr).getD "all"

/-- The messages of a channel that is muted to mentions do not count for the team. -/
def TeamUnreadV2.addChannel (team : TeamUnreadV2) (row : TeamChannelRow) : TeamUnreadV2 :=
  let counted := markUnread row.notifyProps ≠ "mention"
  { team with
    msgCount := team.msgCount + if counted then row.counters.msgCount else 0
    msgCountRoot := team.msgCountRoot + if counted then row.counters.msgCountRoot else 0
    mentionCount := team.mentionCount + row.counters.mentionCount
    mentionCountRoot := team.mentionCountRoot + row.counters.mentionCountRoot }

def TeamUnreadV2.ofRows (config : UnreadConfig) (teamId : Uuid) (rows : List TeamChannelRow) (threads : ThreadCounts) :
    TeamUnreadV2 :=
  rows.foldl TeamUnreadV2.addChannel
    { teamId
      msgCount := 0
      mentionCount := 0
      mentionCountRoot := 0
      msgCountRoot := 0
      threadCount := threads.threadCount
      threadMentionCount := threads.mentionCount
      threadUrgentMentionCount := if config.postPriorityEnabled then threads.urgentMentionCount else 0
      version := v2SchemaVersion }

section Operations

variable (config : UnreadConfig)

def computeChannelUnreadFromDb (userId channelId : Uuid) (username : String) :
    UnreadProg ChannelUnreadV2 := do
  let row ← query (.selectChannelUnread userId channelId username)
  pure (.ofRow config channelId row)

def computeTeamUnreadFromDb (userId teamId : Uuid) (username : String) : UnreadProg TeamUnreadV2 := do
  let rows ← query (.selectTeamChannels userId teamId username)
  let threads ← query (.selectTeamThreads userId teamId username)
  pure (.ofRows config teamId rows threads)

def channelFields : List String :=
  ["msg_count", "msg_count_root", "mention_count", "mention_count_root", "urgent_mention_count", "last_viewed_at",
    "manually_unread", "version"]

/-- The fields of a channel as they are written. -/
def ChannelUnreadV2.values (channel : ChannelUnreadV2) : List (String × Int) :=
  [("msg_count", channel.msgCount), ("msg_count_root", channel.msgCountRoot), ("mention_count", channel.mentionCount),
    ("mention_count_root", channel.mentionCountRoot), ("urgent_mention_count", channel.urgentMentionCount),
    ("last_viewed_at", channel.lastViewedAt), ("manually_unread", if channel.manuallyUnread then 1 else 0),
    ("version", channel.version)]

def TeamUnreadV2.values (team : TeamUnreadV2) : List (String × Int) :=
  [("msg_count", team.msgCount), ("mention_count", team.mentionCount), ("mention_count_root", team.mentionCountRoot),
    ("msg_count_root", team.msgCountRoot), ("thread_count", team.threadCount),
    ("thread_mention_count", team.threadMentionCount),
    ("thread_urgent_mention_count", team.threadUrgentMentionCount), ("version", team.version)]

/-- A hash is there if one of the fields is; what is missing of it has a default. -/
def ChannelUnreadV2.ofValues (channelId : Uuid) (values : List (Option Int)) : Option ChannelUnreadV2 :=
  if values.all (·.isNone) then none
  else some
    { channelId
      msgCount := values[0]?.join.getD 0
      msgCountRoot := values[1]?.join.getD 0
      mentionCount := values[2]?.join.getD 0
      mentionCountRoot := values[3]?.join.getD 0
      urgentMentionCount := values[4]?.join.getD 0
      lastViewedAt := values[5]?.join.getD 0
      manuallyUnread := values[6]?.join = some 1
      version := values[7]?.join.getD v2SchemaVersion }

def readV2ChannelHash (userId channelId : Uuid) : UnreadProg (Option ChannelUnreadV2) := do
  let values ← query (.hmget (.channel userId channelId) channelFields)
  pure (ChannelUnreadV2.ofValues channelId values)

def writeV2ChannelHash (userId : Uuid) (channel : ChannelUnreadV2) : UnreadProg Unit :=
  query (.hset (.channel userId channel.channelId) channel.values)

def writeV2TeamHash (userId : Uuid) (team : TeamUnreadV2) : UnreadProg Unit :=
  query (.hset (.team userId team.teamId) team.values)

def writeLegacyCount (key : CountKey) (count : Int) : UnreadProg Unit :=
  if count ≤ 0 then query (.del key) else query (.set key count)

def writeLegacyChannelCount (userId channelId : Uuid) (count : Int) : UnreadProg Unit :=
  writeLegacyCount (.channel userId channelId) count

def writeLegacyTeamCount (userId teamId : Uuid) (count : Int) : UnreadProg Unit :=
  writeLegacyCount (.team userId teamId) count

def channelMarker (channelId : Uuid) : String := "channel:" ++ channelId.hyphenated

def markDirtyBestEffort (userId : Uuid) (marker : String) : UnreadProg Unit := do
  match ← query .connect with
  | .ok _ => query (.saddDirty userId marker)
  | .error _ => pure ()

def writeUnread (userId : Uuid) (channel : ChannelUnreadV2) (team : TeamUnreadV2) : UnreadProg Unit := do
  writeLegacyChannelCount userId channel.channelId channel.msgCount
  writeLegacyTeamCount userId team.teamId team.msgCount
  writeV2ChannelHash userId channel
  writeV2TeamHash userId team

def cacheChannelUnreadBestEffort (userId : Uuid) (channel : ChannelUnreadV2) (team : TeamUnreadV2) :
    UnreadProg Unit := do
  match ← query .connect with
  | .ok _ => writeUnread userId channel team
  | .error _ => markDirtyBestEffort userId (channelMarker channel.channelId)

def syncChannel (userId : Uuid) (username : String) (channelId : Uuid) : UnreadProg Unit := do
  let channel ← computeChannelUnreadFromDb config userId channelId username
  writeLegacyChannelCount userId channelId channel.msgCount
  writeV2ChannelHash userId channel

def syncTeam (userId : Uuid) (username : String) (teamId : Uuid) : UnreadProg Unit := do
  let team ← computeTeamUnreadFromDb config userId teamId username
  writeLegacyTeamCount userId teamId team.msgCount
  writeV2TeamHash userId team

-- the order in which a hash set of teams is iterated
variable (order : List Uuid → List Uuid)

def syncUserUnreadCache (userId : Uuid) : UnreadProg Unit := do
  let username ← fetchUsername userId
  let channels ← fetchUserChannels userId
  match ← query .connect with
  | .error e => throw (.internal e)
  | .ok _ =>
    channels.forM fun channel => syncChannel config userId username channel.1
    (order (channels.map (·.2)).dedup).forM (syncTeam config userId username)
    query (.delDirty userId)

def targetSeq (channelId : Uuid) : Option Int → UnreadProg Int
  | some seq => pure seq
  | none => do
    let id ← query (.selectMaxSeq channelId true)
    pure (id.getD 0)

def writePosition (userId channelId : Uuid) (seq : Int) : UnreadProg Unit := do
  match ← query (.upsertRead userId channelId seq) with
  | none => throw .database
  | some _ => pure ()

/-- What is read is computed anew and cached, and the user is told. -/
def recacheChannel (userId channelId : Uuid) : UnreadProg Unit := do
  let teamId ← fetchTeamId channelId
  let username ← fetchUsername userId
  let channel ← computeChannelUnreadFromDb config userId channelId username
  let team ← computeTeamUnreadFromDb config userId teamId username
  cacheChannelUnreadBestEffort userId channel team
  query (.broadcast (unreadCountsEnvelope channelId teamId userId channel.msgCount))

def markChannelAsRead (userId channelId : Uuid) (target : Option Int) : UnreadProg Unit := do
  let lastReadId ← targetSeq channelId target
  writePosition userId channelId lastReadId
  recacheChannel config userId channelId

structure ChannelUnreadOverview where
  channelId : Uuid
  teamId : Uuid
  unreadCount : Int
deriving DecidableEq

structure TeamUnreadOverview where
  teamId : Uuid
  unreadCount : Int
deriving DecidableEq

structure UnreadOverview where
  channels : List ChannelUnreadOverview
  teams : List TeamUnreadOverview
deriving DecidableEq

def refreshChannel (userId : Uuid) (username : String) (channelId teamId : Uuid) : UnreadProg Int := do
  let channel ← computeChannelUnreadFromDb config userId channelId username
  let team ← computeTeamUnreadFromDb config userId teamId username
  writeUnread userId channel team
  pure channel.msgCount

def overviewCount (userId : Uuid) (username : String) (channelId teamId : Uuid) : UnreadProg Int := do
  let legacyCount : Option Int ← query (.get (.channel userId channelId))
  if config.unreadV2Enabled then
    match ← readV2ChannelHash userId channelId with
    | some tuple =>
      if tuple.version ≠ v2SchemaVersion ∨ ∃ legacy ∈ legacyCount, legacy ≠ tuple.msgCount then
        refreshChannel config userId username channelId teamId
      else pure tuple.msgCount
    | none => refreshChannel config userId username channelId teamId
  else
    match legacyCount with
    | some legacy => pure legacy
    | none => refreshChannel config userId username channelId teamId

def UnreadOverview.add (overview : List ChannelUnreadOverview × Assoc Uuid Int) (channelId teamId : Uuid) (count : Int) :
    List ChannelUnreadOverview × Assoc Uuid Int :=
  if 0 < count then
    (overview.1 ++ [⟨channelId, teamId, count⟩],
      overview.2.insert teamId ((overview.2.lookup teamId).getD 0 + count))
  else overview

def getUnreadOverview (userId : Uuid) : UnreadProg UnreadOverview := do
  let channels ← fetchUserChannels userId
  let username ← fetchUsername userId
  match ← query .connect with
  | .error e => throw (.internal e)
  | .ok _ =>
    let overview ← channels.foldlM (fun overview channel => do
      let count ← overviewCount config userId username channel.1 channel.2
      pure (UnreadOverview.add overview channel.1 channel.2 count)) ([], ∅)
    pure ⟨overview.1, Page.orderBy (·.teamId.toNat) (overview.2.entries.map fun e => ⟨e.1, e.2⟩)⟩

def incrementHash (key : CountKey) : UnreadProg Unit := do
  query (.hincrby key "msg_count")
  query (.hincrby key "msg_count_root")
  query (.hset key [("version", v2SchemaVersion)])

def incrementMember (channelId teamId memberId : Uuid) : UnreadProg Unit := do
  query (.incr (.channel memberId channelId))
  query (.incr (.team memberId teamId))
  incrementHash (.channel memberId channelId)
  incrementHash (.team memberId teamId)
  query (.saddDirty memberId (channelMarker channelId))
  let count ← query (.get (.channel memberId channelId))
  query (.broadcast (unreadCountsEnvelope channelId teamId memberId (count.getD 0)))

def incrementUnreads (channelId authorId : Uuid) (messageSeq : Int) : UnreadProg Unit := do
  let teamId ← fetchTeamId channelId
  writePosition authorId channelId messageSeq
  let members ← query (.selectMembers channelId)
  let others := members.filter (· ≠ authorId)
  match ← query .connect with
  | .error _ => others.forM fun mid => markDirtyBestEffort mid (channelMarker channelId)
  | .ok _ =>
    query (.setLastMsgId channelId messageSeq)
    others.forM (incrementMember channelId teamId)

/-- What `create_message` does of this: the post is inserted, and the unread counts follow. -/
def createPost (post : PostRow) : UnreadProg Unit := do
  match ← query (.insertPost post) with
  | none => throw .database
  | some _ => incrementUnreads post.channelId post.userId post.seq

def markPositions (userId : Uuid) (channelId : Uuid) : UnreadProg Unit := do
  let lastMsgId ← query (.selectMaxSeq channelId false)
  writePosition userId channelId (lastMsgId.getD 0)

/-- What is cached for the user is removed, and the mark at last. -/
def dropCached (userId : Uuid) (channelRows : List (Uuid × Uuid)) : UnreadProg Unit := do
  match ← query .connect with
  | .error _ => pure ()
  | .ok _ =>
    channelRows.forM fun channel => do
      query (.del (.channel userId channel.1))
      query (.delHash (.channel userId channel.1))
    (order (channelRows.map (·.2)).dedup).forM fun teamId => do
      query (.del (.team userId teamId))
      query (.delHash (.team userId teamId))
    query (.delDirty userId)

def markAllAsRead (userId : Uuid) : UnreadProg Unit := do
  let channelRows ← query (.selectUserChannels userId)
  channelRows.forM fun channel => markPositions userId channel.1
  dropCached order userId channelRows

inductive Operation
  | createPost (post : PostRow)
  | deletePost (id : Uuid)
  | markChannelAsRead (userId channelId : Uuid) (target : Option Int)
  | markAllAsRead (userId : Uuid)
  | getUnreadOverview (userId : Uuid)
  | syncUserUnreadCache (userId : Uuid)

/-- Only the overview returns something. -/
def operation : Operation → UnreadProg (Option UnreadOverview)
  | .createPost post => do createPost post; pure none
  | .deletePost id => do query (.deletePost id); pure none
  | .markChannelAsRead userId channelId target => do markChannelAsRead config userId channelId target; pure none
  | .markAllAsRead userId => do markAllAsRead order userId; pure none
  | .getUnreadOverview userId => some <$> getUnreadOverview config userId
  | .syncUserUnreadCache userId => do syncUserUnreadCache config order userId; pure none

def program (op : Operation) : Prog UnreadAct UnreadAct.Res (Except AppError (Option UnreadOverview)) :=
  (operation config order op).run

end Operations

/-- What brings or removes posts, moves a position, counts up or writes a part of a hash. -/
def UnreadAct.counts : UnreadAct → Bool
  | .insertPost _ | .deletePost _ | .upsertRead _ _ _ | .incr _ | .hincrby _ _ => true
  | .hset _ values => !values.any fun v => v.1 == "msg_count"
  | _ => false

section Programs

variable {α : Type} {config : UnreadConfig} {order : List Uuid → List Uuid} {userId channelId teamId : Uuid}
  {username : String}

def Recounts (p : UnreadProg α) : Prop := Prog.Always (fun _ act => act.counts = false) p

theorem recounts_query {act : UnreadAct} (h : act.counts = false) : Recounts (query act) :=
  Prog.always_lift fun _ => h

theorem recounts_fetchTeamId : Recounts (fetchTeamId channelId) := by
  refine (recounts_query rfl).bind fun team => ?_
  split
  · exact Prog.always_throw _
  · exact Prog.always_pure _

theorem recounts_fetchUsername : Recounts (fetchUsername userId) := by
  refine (recounts_query rfl).bind fun username => ?_
  split <;> exact Prog.always_pure _

theorem recounts_computeChannelUnreadFromDb :
    Recounts (computeChannelUnreadFromDb config userId channelId username) :=
  (recounts_query rfl).bind fun _ => Prog.always_pure _

theorem recounts_computeTeamUnreadFromDb :
    Recounts (computeTeamUnreadFromDb config userId teamId username) :=
  (recounts_query rfl).bind fun _ => (recounts_query rfl).bind fun _ => Prog.always_pure _

theorem recounts_readV2ChannelHash : Recounts (readV2ChannelHash userId channelId) :=
  (recounts_query rfl).bind fun _ => Prog.always_pure _

theorem recounts_writeLegacyCount {key : CountKey} {count : Int} : Recounts (writeLegacyCount key count) := by
  unfold writeLegacyCount
  by_cases h : count ≤ 0
  · rw [if_pos h]
    exact recounts_query rfl
  · rw [if_neg h]
    exact recounts_query rfl

theorem recounts_writeUnread {channel : ChannelUnreadV2} {team : TeamUnreadV2} :
    Recounts (writeUnread userId channel team) :=
  recounts_writeLegacyCount.bind fun _ => recounts_writeLegacyCount.bind fun _ => (recounts_query rfl).bind fun _ => recounts_query rfl

theorem recounts_markDirtyBestEffort {marker : String} : Recounts (markDirtyBestEffort userId marker) := by
  refine (recounts_query rfl).bind fun conn => ?_
  split
  · exact recounts_query rfl
  · exact Prog.always_pure _

theorem recounts_cacheChannelUnreadBestEffort {channel : ChannelUnreadV2} {team : TeamUnreadV2} :
    Recounts (cacheChannelUnreadBestEffort userId channel team) := by
  refine (recounts_query rfl).bind fun conn => ?_
  split
  · exact recounts_writeUnread
  · exact recounts_markDirtyBestEffort

theorem recounts_syncUserUnreadCache : Recounts (syncUserUnreadCache config order userId) := by
  refine recounts_fetchUsername.bind fun username => (recounts_query rfl).bind fun channels => (recounts_query rfl).bind fun conn => ?_
  split
  · exact Prog.always_throw _
  · refine (Prog.always_forM (fun channel => ?_) _).bind fun _ => (Prog.always_forM (fun team => ?_) _).bind fun _ =>
      recounts_query rfl
    · exact recounts_computeChannelUnreadFromDb.bind fun _ => recounts_writeLegacyCount.bind fun _ => recounts_query rfl
    · exact recounts_computeTeamUnreadFromDb.bind fun _ => recounts_writeLegacyCount.bind fun _ => recounts_query rfl

theorem recounts_refreshChannel : Recounts (refreshChannel config userId username channelId teamId) :=
  recounts_computeChannelUnreadFromDb.bind fun _ => recounts_computeTeamUnreadFromDb.bind fun _ =>
    recounts_writeUnread.bind fun _ => Prog.always_pure _

theorem recounts_overviewCount : Recounts (overviewCount config userId username channelId teamId) := by
  refine (recounts_query rfl).bind fun legacyCount => ?_
  split
  · refine recounts_readV2ChannelHash.bind fun tuple => ?_
    split
    · split
      · exact recounts_refreshChannel
      · exact Prog.always_pure _
    · exact recounts_refreshChannel
  · split
    · exact Prog.always_pure _
    · exact recounts_refreshChannel

theorem recounts_getUnreadOverview : Recounts (getUnreadOverview config userId) := by
  refine (recounts_query rfl).bind fun channels => recounts_fetchUsername.bind fun username =>
    (recounts_query rfl).bind fun conn => ?_
  split
  · exact Prog.always_throw _
  · exact (Prog.always_foldlM (fun overview channel => recounts_overviewCount.bind fun _ => Prog.always_pure _) _ _).bind
      fun _ => Prog.always_pure _

theorem recounts_targetSeq {target : Option Int} : Recounts (targetSeq channelId target) := by
  cases target with
  | none => exact (recounts_query rfl).bind fun _ => Prog.always_pure _
  | some seq => exact Prog.always_pure _

theorem recounts_recacheChannel : Recounts (recacheChannel config userId channelId) :=
  recounts_fetchTeamId.bind fun _ => recounts_fetchUsername.bind fun _ => recounts_computeChannelUnreadFromDb.bind
    fun _ => recounts_computeTeamUnreadFromDb.bind fun _ => recounts_cacheChannelUnreadBestEffort.bind
      fun _ => recounts_query rfl

theorem recounts_dropCached {channelRows : List (Uuid × Uuid)} :
    Recounts (dropCached order userId channelRows) := by
  refine (recounts_query rfl).bind fun conn => ?_
  split
  · exact Prog.always_pure _
  · refine (Prog.always_forM (fun channel => ?_) _).bind fun _ => (Prog.always_forM (fun team => ?_) _).bind fun _ =>
      recounts_query rfl
    · exact (recounts_query rfl).bind fun _ => recounts_query rfl
    · exact (recounts_query rfl).bind fun _ => recounts_query rfl

def UnreadAct.caches : UnreadAct → Bool
  | .get _ | .set _ _ | .del _ | .incr _ | .hmget _ _ | .hset _ _ | .hincrby _ _ | .delHash _ | .saddDirty _ _
  | .delDirty _ | .setLastMsgId _ _ | .broadcast _ => true
  | _ => false

def Caches (p : UnreadProg α) : Prop := Prog.Always (fun _ act => act.caches = true) p

theorem caches_query {act : UnreadAct} (h : act.caches = true) : Caches (query act) :=
  Prog.always_lift fun _ => h

theorem caches_incrementHash {key : CountKey} : Caches (incrementHash key) :=
  (caches_query rfl).bind fun _ => (caches_query rfl).bind fun _ => caches_query rfl

theorem caches_incrementMember {memberId : Uuid} : Caches (incrementMember channelId teamId memberId) :=
  (caches_query rfl).bind fun _ => (caches_query rfl).bind fun _ => caches_incrementHash.bind fun _ =>
    caches_incrementHash.bind fun _ => (caches_query rfl).bind fun _ => (caches_query rfl).bind fun _ => caches_query rfl

end Programs

/-! ### Operations under way -/

/-- Operations under way, each started by a request or by the reconciler. -/
abbrev Operations := Pool Store Operation UnreadAct UnreadAct.Res (Except AppError (Option UnreadOverview))

/-- A step says whether a connection to Redis is had. -/
abbrev Input := Pool.Input Operation (Except String Unit)

abbrev Event := Pool.Event Store Operation UnreadAct UnreadAct.Res

abbrev step (db : Tables) (order : List Uuid → List Uuid) : Operations → Input → Option Operations :=
  Pool.step (program db.config order) fun _ redis => Store.perform db redis

abbrev trace (db : Tables) (order : List Uuid → List Uuid) (s : Store) (inputs : List Input) : List Event :=
  Pool.trace (program db.config order) (fun _ redis => Store.perform db redis) (Pool.start s) inputs

/-! ### A channel -/

def Store.empty : Store := ⟨[], ∅, ∅, ∅, ∅, ∅, []⟩

/-- The users `1` and `2` are in the channel `5` of the team `9`. -/
def pair : Tables where
  config := ⟨true, true⟩
  teams := AList.insert 5 9 ∅
  members := AList.insert (5, 1) ⟨none, false, .obj []⟩ (AList.insert (5, 2) ⟨none, false, .obj []⟩ ∅)
  usernames := AList.insert 1 "ann" (AList.insert 2 "bob" ∅)
  threads := []

def pairPost (userId : Uuid) (seq : ℕ) : PostRow := ⟨seq, 5, userId, none, seq, "hello", seq, false⟩

end Rustchat.Unreads
