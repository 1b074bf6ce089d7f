import Mathlib.Data.String.Basic
import Rustchat.Posts
import Rustchat.UnreadIncrements

/-!
# Unread counts of the teams of a user (`api/v4/users/unreads.rs`)

The endpoint reads the channels and the threads of all teams in one statement each, and adds them up by team.
What it answers for a team is what `compute_team_unread_from_db` computes for this team alone
(`Unreads.teamUnreads_eq`).
-/

namespace Rustchat.Unreads

structure TeamUnreadChannelRow where
  teamId : Uuid
  notifyProps : Json
  msgCount : Int
  mentionCount : Int
  msgCountRoot : Int
  mentionCountRoot : Int

structure TeamUnreadThreadRow where
  teamId : Uuid
  threadCount : Int
  threadMentionCount : Int
  threadUrgentMentionCount : Int

structure TeamUnread where
  teamId : String
  msgCount : Int
  mentionCount : Int
  mentionCountRoot : Int
  msgCountRoot : Int
  threadCount : Int
  threadMentionCount : Int
  threadUrgentMentionCount : Int
deriving DecidableEq

namespace Tables

variable (db : Tables) (s : Store)

/-- The filters on the team of a row. -/
def teamSelected (excludeTeam onlyTeam : Option Uuid) (teamId : Uuid) : Prop :=
  (∀ t ∈ excludeTeam, teamId ≠ t) ∧ ∀ t ∈ onlyTeam, teamId = t

instance (excludeTeam onlyTeam : Option Uuid) (teamId : Uuid) :
    Decidable (teamSelected excludeTeam onlyTeam teamId) :=
  decidable_of_iff (excludeTeam.all (teamId ≠ ·) = true ∧ onlyTeam.all (teamId = ·) = true)
    (by simp [teamSelected, Option.all_eq_true])

def teamUnreadChannelRow (userId : Uuid) (username : String) (teamId channelId : Uuid) (notifyProps : Json) :
    TeamUnreadChannelRow :=
  let posts := s.posts.filter fun p => p.channelId = channelId
  let unread (p : PostRow) : Bool := !p.deleted && decide (s.position userId channelId < p.seq)
  { teamId
    notifyProps
    msgCount := count unread posts
    mentionCount := count (fun p => unread p && p.mentions username) posts
    msgCountRoot := count (fun p => unread p && p.rootPostId.isNone) posts
    mentionCountRoot := count (fun p => unread p && p.rootPostId.isNone && p.mentions username) posts }

def teamUnreadChannelRows (userId : Uuid) (username : String) (excludeTeam onlyTeam : Option Uuid) :
    List TeamUnreadChannelRow :=
  db.members.entries.filterMap fun e =>
    if e.1.2 = userId then
      ((db.teams.lookup e.1.1).filter fun team => teamSelected excludeTeam onlyTeam team).map fun team =>
        teamUnreadChannelRow s userId username team e.1.1 e.2.notifyProps
    else none

/-- The threads that the user follows, with their teams. -/
def teamThreadJoin (userId : Uuid) (excludeTeam onlyTeam : Option Uuid) : List (Uuid × ThreadMembership) :=
  db.threads.filterMap fun tm =>
    if tm.userId = userId ∧ tm.following = true then
      ((s.posts.find? fun p => p.id = tm.postId).filter fun p => p.rootPostId.isNone && !p.deleted).bind fun p =>
        ((db.teams.lookup p.channelId).filter fun team => teamSelected excludeTeam onlyTeam team).map (·, tm)
    else none

/-- `GROUP BY c.team_id` -/
def teamUnreadThreadRows (userId : Uuid) (username : String) (excludeTeam onlyTeam : Option Uuid) :
    List TeamUnreadThreadRow :=
  let joined := db.teamThreadJoin s userId excludeTeam onlyTeam
  (joined.map Prod.fst).dedup.map fun team =>
    let threads := (joined.filter fun row => row.1 = team).map Prod.snd
    { teamId := team
      threadCount := (threads.countP fun tm => decide (0 < tm.unreadRepliesCount ∨ 0 < tm.mentionCount) : ℕ)
      threadMentionCount := (threads.map (·.mentionCount)).sum
      threadUrgentMentionCount := (threads.map fun tm => urgentReplies s tm username).sum }

end Tables

def TeamUnread.zero (teamId : Uuid) : TeamUnread := ⟨encodeMmId teamId, 0, 0, 0, 0, 0, 0, 0⟩

/-- `entry(..).or_insert_with(..)` and what is done to the entry. -/
def withEntry (aggregated : Assoc Uuid TeamUnread) (teamId : Uuid) (f : TeamUnread → TeamUnread) :
    Assoc Uuid TeamUnread :=
  aggregated.insert teamId (f ((aggregated.lookup teamId).getD (.zero teamId)))

def TeamUnread.addChannel (row : TeamUnreadChannelRow) (entry : TeamUnread) : TeamUnread :=
  let entry := if markUnread row.notifyProps ≠ "mention" then
      { entry with msgCount := entry.msgCount + row.msgCount, msgCountRoot := entry.msgCountRoot + row.msgCountRoot }
    else entry
  { entry with
    mentionCount := entry.mentionCount + row.mentionCount
    mentionCountRoot := entry.mentionCountRoot + row.mentionCountRoot }

def TeamUnread.setThreads (config : UnreadConfig) (row : TeamUnreadThreadRow) (entry : TeamUnread) :
    TeamUnread :=
  { entry with
    threadCount := row.threadCount
    threadMentionCount := row.threadMentionCount
    threadUrgentMentionCount := if config.postPriorityEnabled then row.threadUrgentMentionCount else 0 }

/-- `compute_team_unreads`; `collapsedThreadsEnabled` is a field of the configuration that nothing else here reads. -/
def computeTeamUnreads (db : Tables) (s : Store) (collapsedThreadsEnabled : Bool) (userId : Uuid)
    (excludeTeam onlyTeam : Option Uuid) (includeCollapsedThreads : Bool) :
    Except AppError (List TeamUnread) :=
  (okOr (db.usernames.lookup userId) .database).map fun username =>
    let channels := (db.teamUnreadChannelRows s userId username excludeTeam onlyTeam).foldl
      (fun aggregated row => withEntry aggregated row.teamId (.addChannel row)) ∅
    let aggregated := if includeCollapsedThreads && collapsedThreadsEnabled then
        (db.teamUnreadThreadRows s userId username excludeTeam onlyTeam).foldl
          (fun aggregated row => withEntry aggregated row.teamId (.setThreads db.config row)) channels
      else channels
    Page.orderBy (·.teamId) (aggregated.entries.map (·.2))

def entryOf (aggregated : Assoc Uuid TeamUnread) (teamId : Uuid) : TeamUnread :=
  (aggregated.lookup teamId).getD (.zero teamId)

section Entries
variable {aggregated : Assoc Uuid TeamUnread} {teamId t : Uuid} {f : TeamUnread → TeamUnread}

theorem entryOf_withEntry : entryOf (withEntry aggregated t f) teamId =
    if teamId = t then f (entryOf aggregated teamId) else entryOf aggregated teamId := by
  unfold entryOf withEntry
  rw [Assoc.lookup_insert_eq]
  split
  · next h => subst h; rfl
  · rfl

theorem entryOf_foldl {ρ : Type} (team : ρ → Uuid) (step : ρ → TeamUnread → TeamUnread) (rows : List ρ) :
    entryOf (rows.foldl (fun aggregated row => withEntry aggregated (team row) (step row)) aggregated) teamId =
      (rows.filter fun row => team row = teamId).foldl (fun entry row => step row entry) (entryOf aggregated teamId) := by
  induction rows generalizing aggregated with
  | nil => rfl
  | cons row rows ih =>
    rw [List.foldl_cons, ih, entryOf_withEntry, List.filter_cons]
    by_cases h : team row = teamId
    · rw [if_pos h.symm, if_pos (by simpa using h)]
      rfl
    · rw [if_neg fun hs => h hs.symm, if_neg (by simpa using h)]

def Named (aggregated : Assoc Uuid TeamUnread) : Prop :=
  ∀ k e, aggregated.lookup k = some e → e.teamId = encodeMmId k

theorem named_foldl {ρ : Type} (team : ρ → Uuid) {step : ρ → TeamUnread → TeamUnread}
    (hstep : ∀ row e, (step row e).teamId = e.teamId) (rows : List ρ) (h : Named aggregated) :
    Named (rows.foldl (fun aggregated row => withEntry aggregated (team row) (step row)) aggregated) := by
  induction rows generalizing aggregated with
  | nil => exact h
  | cons row rows ih =>
    refine ih fun k e hk => ?_
    rcases Assoc.lookup_insert_cases hk with ⟨rfl, rfl⟩ | ⟨-, hk⟩
    · rw [hstep]
      cases hl : aggregated.lookup (team row) with
      | none => rfl
      | some old => exact h _ _ hl
    · exact h k e hk

end Entries

/-! ### Rows of one team -/

section Rows
variable {db : Tables} {s : Store} {userId teamId channelId : Uuid} {username : String}
    {excludeTeam onlyTeam : Option Uuid}

def TeamUnreadChannelRow.ofChannel (teamId : Uuid) (row : TeamChannelRow) : TeamUnreadChannelRow :=
  ⟨teamId, row.notifyProps, row.counters.msgCount, row.counters.mentionCount, row.counters.msgCountRoot,
    row.counters.mentionCountRoot⟩

theorem count_filter (f g : PostRow → Bool) (posts : List PostRow) :
    count f (posts.filter g) = count (fun p => g p && f p) posts := by
  unfold count
  rw [List.countP_filter]
  exact congrArg Nat.cast (List.countP_congr fun p _ => by rw [Bool.and_comm])

theorem teamUnreadChannelRow_eq (notifyProps : Json) :
    Tables.teamUnreadChannelRow s userId username teamId channelId notifyProps =
      .ofChannel teamId ⟨notifyProps, .ofPosts username (s.unreadPosts userId channelId)⟩ := by
  unfold Tables.teamUnreadChannelRow TeamUnreadChannelRow.ofChannel Counters.ofPosts Store.unreadPosts
  simp only [count_filter]
  congr 2 <;>
  · funext p
    by_cases hc : p.channelId = channelId <;> simp [hc, Bool.and_assoc]

theorem filter_channelRows (h : Tables.teamSelected excludeTeam onlyTeam teamId) :
    ((db.teamUnreadChannelRows s userId username excludeTeam onlyTeam).filter fun row => row.teamId = teamId) =
      (db.teamChannels s userId teamId username).map (.ofChannel teamId) := by
  unfold Tables.teamUnreadChannelRows Tables.teamChannels
  rw [List.filter_filterMap, List.map_filterMap]
  refine List.filterMap_congr fun e _ => ?_
  by_cases hu : e.1.2 = userId
  · rw [if_pos hu]
    cases hteam : db.teams.lookup e.1.1 with
    | none => simp
    | some team =>
      by_cases ht : team = teamId
      · subst ht
        simp [h, hu, Option.filter, teamUnreadChannelRow_eq, TeamUnreadChannelRow.ofChannel]
      · have hrow : (Tables.teamUnreadChannelRow s userId username team e.1.1 e.2.notifyProps).teamId ≠ teamId := ht
        by_cases hsel : Tables.teamSelected excludeTeam onlyTeam team <;> simp [hu, hsel, Option.filter,
          ht, hrow]
  · simp [hu]

/-- The thread that a membership belongs to is a root post of the team. -/
def rootIn (db : Tables) (s : Store) (teamId postId : Uuid) : Bool :=
  (s.posts.find? fun p => p.id = postId).any fun p =>
    p.rootPostId.isNone && !p.deleted && db.teams.lookup p.channelId == some teamId

theorem filter_threadRoot (h : Tables.teamSelected excludeTeam onlyTeam teamId) (tm : ThreadMembership) :
    ((((s.posts.find? fun p => p.id = tm.postId).filter fun p => p.rootPostId.isNone && !p.deleted).bind fun p =>
        ((db.teams.lookup p.channelId).filter fun team => Tables.teamSelected excludeTeam onlyTeam team).map
          (·, tm)).filter fun row => row.1 = teamId) =
      if rootIn db s teamId tm.postId then some (teamId, tm) else none := by
  unfold rootIn
  cases s.posts.find? fun p => p.id = tm.postId with
  | none => rfl
  | some p =>
    by_cases hroot : (p.rootPostId.isNone && !p.deleted) = true
    · rw [Option.filter_some, if_pos hroot, Option.any_some, hroot, Bool.true_and, Option.bind_some]
      cases db.teams.lookup p.channelId with
      | none => rfl
      | some team =>
        by_cases ht : team = teamId
        · subst ht
          simp [h, Option.filter]
        · by_cases hsel : Tables.teamSelected excludeTeam onlyTeam team <;> simp [hsel, Option.filter, ht]
    · rw [Option.filter_some, if_neg hroot, Option.any_some, Bool.eq_false_iff.2 hroot]
      rfl

theorem filter_threadJoin (h : Tables.teamSelected excludeTeam onlyTeam teamId) :
    (db.teamThreadJoin s userId excludeTeam onlyTeam).filter (fun row => row.1 = teamId) =
      (db.followedThreads s userId teamId).map (teamId, ·) := by
  unfold Tables.teamThreadJoin Tables.followedThreads
  rw [List.filter_filterMap, ← List.filterMap_eq_map, ← List.filterMap_eq_filter, List.filterMap_filterMap]
  refine List.filterMap_congr fun tm _ => ?_
  by_cases hu : tm.userId = userId ∧ tm.following = true
  · rw [if_pos hu, filter_threadRoot h]
    unfold rootIn
    simp only [hu, true_and, Option.guard]
    split <;> simp_all
  · rw [if_neg hu, Option.guard, if_neg (by simpa using fun h1 h2 => absurd ⟨h1, h2⟩ hu)]
    rfl

theorem filter_threadRows (h : Tables.teamSelected excludeTeam onlyTeam teamId) :
    (db.teamUnreadThreadRows s userId username excludeTeam onlyTeam).filter (fun row => row.teamId = teamId) =
      if db.followedThreads s userId teamId = [] then []
      else
        let threads := db.teamThreads s userId teamId username
        [⟨teamId, threads.threadCount, threads.mentionCount, threads.urgentMentionCount⟩] := by
  have hthreads : ((db.teamThreadJoin s userId excludeTeam onlyTeam).filter fun row => row.1 = teamId).map Prod.snd =
      db.followedThreads s userId teamId := by
    rw [filter_threadJoin h, List.map_map]
    exact List.map_id _
  unfold Tables.teamUnreadThreadRows Tables.teamThreads
  dsimp only
  rw [List.filter_map]
  have hgroup : (((db.teamThreadJoin s userId excludeTeam onlyTeam).map Prod.fst).dedup.filter fun t => t = teamId) =
      if db.followedThreads s userId teamId = [] then [] else [teamId] := by
    have hmem : teamId ∈ (db.teamThreadJoin s userId excludeTeam onlyTeam).map Prod.fst ↔
        db.followedThreads s userId teamId ≠ [] := by
      rw [← hthreads, Ne, List.map_eq_nil_iff, List.filter_eq_nil_iff]
      simp
    rw [List.filter_eq, List.count_dedup]
    split
    · next hm => rw [if_neg (hmem.1 hm)]; rfl
    · next hm => rw [if_pos (not_not.1 fun hne => hm (hmem.2 hne))]; rfl
  refine (congrArg _ hgroup).trans ?_
  split
  · rfl
  · rw [List.map_singleton, hthreads]

/-! ### The entry of a team and its tuple -/

/-- A tuple as the endpoint answers it. -/
def TeamUnreadV2.entry (team : TeamUnreadV2) : TeamUnread :=
  ⟨encodeMmId team.teamId, team.msgCount, team.mentionCount, team.mentionCountRoot, team.msgCountRoot, team.threadCount,
    team.threadMentionCount, team.threadUrgentMentionCount⟩

theorem addChannel_entry (team : TeamUnreadV2) (row : TeamChannelRow) :
    TeamUnread.addChannel (.ofChannel teamId row) team.entry = (team.addChannel row).entry := by
  unfold TeamUnread.addChannel TeamUnreadV2.addChannel TeamUnreadChannelRow.ofChannel TeamUnreadV2.entry
  by_cases h : markUnread row.notifyProps = "mention" <;> simp [h]

theorem foldl_addChannel_entry (rows : List TeamChannelRow) (team : TeamUnreadV2) :
    (rows.map (.ofChannel teamId)).foldl (fun entry row => TeamUnread.addChannel row entry) team.entry =
      (rows.foldl TeamUnreadV2.addChannel team).entry := by
  induction rows generalizing team with
  | nil => rfl
  | cons row rows ih => rw [List.map_cons, List.foldl_cons, addChannel_entry, ih, List.foldl_cons]

theorem setThreads_entry (config : UnreadConfig) (rows : List TeamChannelRow) (threads : ThreadCounts) :
    TeamUnread.setThreads config ⟨teamId, threads.threadCount, threads.mentionCount, threads.urgentMentionCount⟩
        (TeamUnreadV2.ofRows config teamId rows ⟨0, 0, 0⟩).entry =
      (TeamUnreadV2.ofRows config teamId rows threads).entry := by
  unfold TeamUnreadV2.ofRows
  rw [foldl_addChannel, foldl_addChannel]
  rfl

theorem teamThreads_of_nil (h : db.followedThreads s userId teamId = []) :
    db.teamThreads s userId teamId username = ⟨0, 0, 0⟩ := by
  unfold Tables.teamThreads
  rw [h]
  rfl

theorem ofRows_nil (config : UnreadConfig) :
    (TeamUnreadV2.ofRows config teamId [] ⟨0, 0, 0⟩).entry = .zero teamId := by
  unfold TeamUnreadV2.ofRows TeamUnreadV2.entry TeamUnread.zero
  simp

/-- What the endpoint holds about the teams before they are sorted. -/
def Tables.aggregated (db : Tables) (s : Store) (userId : Uuid) (username : String) (excludeTeam onlyTeam : Option Uuid) :
    Assoc Uuid TeamUnread :=
  (db.teamUnreadThreadRows s userId username excludeTeam onlyTeam).foldl
    (fun aggregated row => withEntry aggregated row.teamId (.setThreads db.config row))
    ((db.teamUnreadChannelRows s userId username excludeTeam onlyTeam).foldl
      (fun aggregated row => withEntry aggregated row.teamId (.addChannel row)) ∅)

theorem entryOf_aggregated (h : Tables.teamSelected excludeTeam onlyTeam teamId) :
    entryOf (db.aggregated s userId username excludeTeam onlyTeam) teamId =
      (TeamUnreadV2.ofRows db.config teamId (db.teamChannels s userId teamId username)
        (db.teamThreads s userId teamId username)).entry := by
  have hchannels : entryOf ((db.teamUnreadChannelRows s userId username excludeTeam onlyTeam).foldl
      (fun aggregated row => withEntry aggregated row.teamId (.addChannel row)) ∅) teamId =
      (TeamUnreadV2.ofRows db.config teamId (db.teamChannels s userId teamId username) ⟨0, 0, 0⟩).entry := by
    have hzero : entryOf ∅ teamId = (TeamUnreadV2.ofRows db.config teamId [] ⟨0, 0, 0⟩).entry := by
      rw [ofRows_nil]
      rfl
    rw [entryOf_foldl TeamUnreadChannelRow.teamId TeamUnread.addChannel, filter_channelRows h, hzero]
    exact foldl_addChannel_entry _ _
  unfold Tables.aggregated
  rw [entryOf_foldl TeamUnreadThreadRow.teamId (TeamUnread.setThreads db.config), filter_threadRows h,
    hchannels]
  split
  · next hnone => rw [teamThreads_of_nil hnone]; rfl
  · exact setThreads_entry db.config _ _

theorem named_aggregated : Named (db.aggregated s userId username excludeTeam onlyTeam) := by
  unfold Tables.aggregated
  refine named_foldl TeamUnreadThreadRow.teamId (fun row e => by cases row; rfl) _
    (named_foldl TeamUnreadChannelRow.teamId (fun row e => ?_) _ fun k e hk => ?_)
  · unfold TeamUnread.addChannel
    dsimp only
    split <;> rfl
  · cases hk

def Tables.teamUnreads (db : Tables) (s : Store) (userId : Uuid) (username : String) (excludeTeam onlyTeam : Option Uuid) :
    List TeamUnread :=
  Page.orderBy (·.teamId) ((db.aggregated s userId username excludeTeam onlyTeam).entries.map (·.2))

theorem computeTeamUnreads_eq (hname : db.usernames.lookup userId = some username) :
    computeTeamUnreads db s true userId excludeTeam onlyTeam true =
      .ok (db.teamUnreads s userId username excludeTeam onlyTeam) := by
  unfold computeTeamUnreads
  rw [hname]
  rfl

theorem mem_teamUnreads {v : TeamUnread} : v ∈ db.teamUnreads s userId username excludeTeam onlyTeam ↔
    ∃ k, (db.aggregated s userId username excludeTeam onlyTeam).lookup k = some v := by
  unfold Tables.teamUnreads
  rw [Page.orderBy_perm.mem_iff, List.mem_map]
  constructor
  · rintro ⟨e, he, rfl⟩
    exact ⟨e.1, Assoc.mem_entries_iff.1 he⟩
  · rintro ⟨k, hk⟩
    exact ⟨⟨k, v⟩, Assoc.mem_entries_iff.2 hk, rfl⟩

/-- What the endpoint answers for a team is the tuple that is cached, in every counter. -/
theorem teamUnreads_eq (hname : db.usernames.lookup userId = some username)
    (hteam : Tables.teamSelected excludeTeam onlyTeam teamId) : ∃ values team,
      computeTeamUnreads db s true userId excludeTeam onlyTeam true = .ok values ∧
      answer db s (computeTeamUnreadFromDb db.config userId teamId username) = .ok team ∧
      (∀ v ∈ values, v.teamId = encodeMmId teamId → v = team.entry) ∧
      (team.entry ∈ values ∨ team.entry = .zero teamId) := by
  have hentry : entryOf (db.aggregated s userId username excludeTeam onlyTeam) teamId = (TeamUnreadV2.ofRows db.config teamId
      (db.teamChannels s userId teamId username) (db.teamThreads s userId teamId username)).entry :=
    entryOf_aggregated hteam
  refine ⟨_, _, computeTeamUnreads_eq hname, rfl, fun v hv hid => ?_, ?_⟩
  · obtain ⟨k, hk⟩ := mem_teamUnreads.1 hv
    obtain rfl : k = teamId := encodeMmId_injective ((named_aggregated k v hk).symm.trans hid)
    refine Eq.trans ?_ hentry
    unfold entryOf
    rw [hk]
    rfl
  · unfold entryOf at hentry
    cases hk : (db.aggregated s userId username excludeTeam onlyTeam).lookup teamId with
    | none =>
      rw [hk] at hentry
      exact .inr hentry.symm
    | some v =>
      rw [hk] at hentry
      exact .inl (mem_teamUnreads.2 ⟨teamId, hk.trans (congrArg some hentry)⟩)

end Rows

/-- One unread post, by somebody else. -/
theorem teamUnreads_eq_pair : ∃ values team,
    computeTeamUnreads pair { Store.empty with posts := [pairPost 1 3] } true 2 none (some 9) true = .ok values ∧
    answer pair { Store.empty with posts := [pairPost 1 3] } (computeTeamUnreadFromDb pair.config 2 9 "bob") = .ok team ∧
    (∀ v ∈ values, v.teamId = encodeMmId 9 → v = team.entry) ∧ (team.entry ∈ values ∨ team.entry = .zero 9) :=
  teamUnreads_eq (by decide) (by decide)

end Rustchat.Unreads
