import Rustchat.Unreads

/-!
# Counting a post up and computing anew

A new post adds one to the messages and to the root messages that are cached for every member but its author, and moves
the position of the author without a change to what is cached for the author. That is what would be computed from the
database only for a root post that mentions nobody, is not read yet and goes to a member whose channel is not muted; and
for the author only if the position moves past no unread post (`Unreads.upToDate_createPost_iff`).
-/

namespace Rustchat.Unreads

def answer {α : Type} (db : Tables) (s : Store) (p : UnreadProg α) : Except AppError α :=
  (p.run.eval (Store.perform db (.ok ())) s).1

/-- The state after the post was created, with nothing else going on. -/
def afterPost (db : Tables) (s : Store) (post : PostRow) : Store :=
  ((createPost post).run.eval (Store.perform db (.ok ())) s).2

def Tables.username (db : Tables) (userId : Uuid) : String := (db.usernames.lookup userId).getD ""

/-- The tuple that the hash of a team holds, read like the hash of a channel. -/
def Store.cachedTeam (s : Store) (userId teamId : Uuid) : Option TeamUnreadV2 :=
  let hash := s.hash (.team userId teamId)
  if hash.keys = [] then none
  else some
    { teamId
      msgCount := (hash.lookup "msg_count").getD 0
      mentionCount := (hash.lookup "mention_count").getD 0
      mentionCountRoot := (hash.lookup "mention_count_root").getD 0
      msgCountRoot := (hash.lookup "msg_count_root").getD 0
      threadCount := (hash.lookup "thread_count").getD 0
      threadMentionCount := (hash.lookup "thread_mention_count").getD 0
      threadUrgentMentionCount := (hash.lookup "thread_urgent_mention_count").getD 0
      version := (hash.lookup "version").getD v2SchemaVersion }

/-- What is cached for a user, about a channel and its team, is what would be computed. -/
structure UpToDate (db : Tables) (s : Store) (userId channelId teamId : Uuid) : Prop where
  channel : ∃ channel, answer db s (readV2ChannelHash userId channelId) = .ok (some channel) ∧
    answer db s (computeChannelUnreadFromDb db.config userId channelId (db.username userId)) = .ok channel
  team : ∃ team, s.cachedTeam userId teamId = some team ∧
    answer db s (computeTeamUnreadFromDb db.config userId teamId (db.username userId)) = .ok team

/-- The author's position moves past no unread post, and the post is no urgent reply for the author. -/
structure AuthorUnmoved (db : Tables) (s : Store) (post : PostRow) (teamId : Uuid) : Prop where
  position : ∀ q ∈ s.posts, q.channelId = post.channelId → q.deleted = false →
    (s.position post.userId post.channelId < q.seq ↔ post.seq < q.seq)
  threads : db.config.postPriorityEnabled = true → ∀ tm ∈ db.followedThreads s post.userId teamId,
    post.rootPostId = some tm.postId → (∀ readAt ∈ tm.lastReadAt, readAt < post.createdAt) →
      post.urgent (db.username post.userId) = false

/-- The post is an unread root message and nothing else for the member. -/
structure PlainMessage (db : Tables) (s : Store) (post : PostRow) (userId : Uuid)
    (member : ChannelMember) : Prop where
  root : post.rootPostId = none
  mentions : post.mentions (db.username userId) = false
  unread : s.position userId post.channelId < post.seq
  muted : markUnread member.notifyProps ≠ "mention"

section Computed

variable {db : Tables} {s s' : Store} {userId channelId teamId : Uuid} {username : String}

def Tables.channelFromDb (db : Tables) (s : Store) (userId channelId : Uuid) : ChannelUnreadV2 :=
  .ofRow db.config channelId (db.channelUnread s userId channelId (db.username userId))

def Tables.teamFromDb (db : Tables) (s : Store) (userId teamId : Uuid) : TeamUnreadV2 :=
  .ofRows db.config teamId (db.teamChannels s userId teamId (db.username userId))
    (db.teamThreads s userId teamId (db.username userId))

def Store.cachedChannel (s : Store) (userId channelId : Uuid) : Option ChannelUnreadV2 :=
  ChannelUnreadV2.ofValues channelId (channelFields.map (s.hash (.channel userId channelId)).lookup)

theorem upToDate_iff : UpToDate db s userId channelId teamId ↔
    s.cachedChannel userId channelId = some (db.channelFromDb s userId channelId) ∧
      s.cachedTeam userId teamId = some (db.teamFromDb s userId teamId) := by
  constructor
  · rintro ⟨⟨channel, hread, hchannel⟩, team, hcached, hteam⟩
    cases hchannel
    cases hteam
    exact ⟨Except.ok.inj hread, hcached⟩
  · rintro ⟨hchannel, hteam⟩
    exact ⟨⟨_, congrArg Except.ok hchannel, rfl⟩, _, hteam, rfl⟩

variable {p : PostRow} {posts : List PostRow}

def Counters.add (a b : Counters) : Counters :=
  ⟨a.msgCount + b.msgCount, a.msgCountRoot + b.msgCountRoot, a.mentionCount + b.mentionCount,
    a.mentionCountRoot + b.mentionCountRoot, a.urgentMentionCount + b.urgentMentionCount⟩

theorem count_append {f : PostRow → Bool} {posts posts' : List PostRow} :
    count f (posts ++ posts') = count f posts + count f posts' := by
  unfold count
  rw [List.countP_append]
  omega

theorem ofPosts_append {posts' : List PostRow} :
    Counters.ofPosts username (posts ++ posts') = (Counters.ofPosts username posts).add (.ofPosts username posts') := by
  unfold Counters.ofPosts Counters.add
  simp only [count_append]

def Tables.otherChannels (db : Tables) (s : Store) (userId teamId : Uuid) (username : String) (channelId : Uuid) :
    List TeamChannelRow :=
  (db.members.erase (channelId, userId)).entries.filterMap fun e =>
    if e.1.2 = userId ∧ db.teams.lookup e.1.1 = some teamId then
      some ⟨e.2.notifyProps, .ofPosts username (s.unreadPosts userId e.1.1)⟩
    else none

theorem teamChannels_perm {member : ChannelMember} (hteam : db.teams.lookup channelId = some teamId)
    (hmember : db.members.lookup (channelId, userId) = some member) :
    (db.teamChannels s userId teamId username).Perm
      (⟨member.notifyProps, .ofPosts username (s.unreadPosts userId channelId)⟩ ::
        db.otherChannels s userId teamId username channelId) := by
  unfold Tables.teamChannels Tables.otherChannels
  have hentries : db.members.entries.Perm
      (⟨(channelId, userId), member⟩ :: (db.members.erase (channelId, userId)).entries) :=
    (Assoc.perm_insert_self hmember).symm
  have hperm := hentries.filterMap fun e =>
    if e.1.2 = userId ∧ db.teams.lookup e.1.1 = some teamId then
      some (⟨e.2.notifyProps, .ofPosts username (s.unreadPosts userId e.1.1)⟩ : TeamChannelRow)
    else none
  rw [List.filterMap_cons, if_pos ⟨rfl, hteam⟩] at hperm
  exact hperm

theorem otherChannels_congr (h : ∀ c, c ≠ channelId → s'.unreadPosts userId c = s.unreadPosts userId c) :
    db.otherChannels s' userId teamId username channelId = db.otherChannels s userId teamId username channelId := by
  unfold Tables.otherChannels
  refine List.filterMap_congr fun e he => ?_
  by_cases hu : e.1.2 = userId
  · have hkey := (Assoc.lookup_erase_cases (Assoc.mem_entries_iff.1 he)).1
    have hc : e.1.1 ≠ channelId := fun hc => hkey (Prod.ext hc hu)
    rw [h e.1.1 hc]
  · rw [if_neg fun h => hu h.1, if_neg fun h => hu h.1]

def rowSum (f : TeamChannelRow → Int) (rows : List TeamChannelRow) : Int := (rows.map f).sum

def countedFor (f : Counters → Int) (row : TeamChannelRow) : Int :=
  if markUnread row.notifyProps ≠ "mention" then f row.counters else 0

theorem foldl_addChannel (team : TeamUnreadV2) (rows : List TeamChannelRow) :
    rows.foldl TeamUnreadV2.addChannel team = { team with
      msgCount := team.msgCount + rowSum (countedFor (·.msgCount)) rows
      msgCountRoot := team.msgCountRoot + rowSum (countedFor (·.msgCountRoot)) rows
      mentionCount := team.mentionCount + rowSum (·.counters.mentionCount) rows
      mentionCountRoot := team.mentionCountRoot + rowSum (·.counters.mentionCountRoot) rows } := by
  induction rows generalizing team with
  | nil => simp [rowSum]
  | cons row rows ih =>
    rw [List.foldl_cons, ih]
    simp only [TeamUnreadV2.addChannel, rowSum, countedFor, List.map_cons, List.sum_cons, add_assoc]

theorem rowSum_perm {f : TeamChannelRow → Int} {rows rows' : List TeamChannelRow} (h : rows.Perm rows') :
    rowSum f rows = rowSum f rows' := (h.map f).sum_eq

theorem rowSum_cons {f : TeamChannelRow → Int} {row : TeamChannelRow} {rows : List TeamChannelRow} :
    rowSum f (row :: rows) = f row + rowSum f rows := rfl

end Computed

section Cached

variable {db : Tables} {s : Store} {key key' : CountKey} {userId channelId teamId : Uuid}

theorem hash_hset {values : List (String × Int)} : (s.hset key values).hash key' =
    if key' = key then values.foldl (fun hash v => hash.insert v.1 v.2) (s.hash key) else s.hash key' := by
  unfold Store.hash Store.hset
  dsimp only
  rw [Assoc.lookup_insert_eq]
  split <;> rfl

theorem hash_hincrby {field : String} : (s.hincrby key field).hash key' =
    if key' = key then (s.hash key).insert field (((s.hash key).lookup field).getD 0 + 1) else s.hash key' := by
  unfold Store.hash Store.hincrby
  dsimp only
  rw [Assoc.lookup_insert_eq]
  split <;> rfl

theorem hash_delHash : Store.hash { s with hashes := s.hashes.erase key } key' = if key' = key then ∅ else s.hash key' := by
  unfold Store.hash
  dsimp only
  rw [Assoc.lookup_erase_eq]
  split <;> rfl

def countUp (hash : Assoc String Int) : Assoc String Int :=
  let counted := hash.insert "msg_count" ((hash.lookup "msg_count").getD 0 + 1)
  (counted.insert "msg_count_root" ((counted.lookup "msg_count_root").getD 0 + 1)).insert "version" v2SchemaVersion

theorem hash_incrementHash : (((s.hincrby key "msg_count").hincrby key "msg_count_root").hset key
    [("version", v2SchemaVersion)]).hash key' = if key' = key then countUp (s.hash key) else s.hash key' := by
  simp only [hash_hset, hash_hincrby, List.foldl_cons, List.foldl_nil, if_true]
  split <;> rfl

def countHash (key : CountKey) (s : Store) : Store :=
  ((s.hincrby key "msg_count").hincrby key "msg_count_root").hset key [("version", v2SchemaVersion)]

def countMember (channelId teamId memberId : Uuid) (s : Store) : Store :=
  let counted := ((s.incr (.channel memberId channelId)).incr (.team memberId teamId)
    |> countHash (.channel memberId channelId) |> countHash (.team memberId teamId)).saddDirty memberId
      (channelMarker channelId)
  counted.send (unreadCountsEnvelope channelId teamId memberId
    ((counted.counts.lookup (.channel memberId channelId)).getD 0))

theorem eval_incrementMember (memberId : Uuid) : (incrementMember channelId teamId memberId).run.eval
    (Store.perform db (.ok ())) s = (.ok (), countMember channelId teamId memberId s) := rfl

def storePost (s : Store) (post : PostRow) : Store :=
  { s with
    posts := s.posts ++ [{ post with deleted := false }]
    reads := s.reads.insert (post.userId, post.channelId) post.seq
    lastMsgIds := s.lastMsgIds.insert post.channelId post.seq }

theorem eval_createPost {post : PostRow} (hteam : db.teams.lookup post.channelId = some teamId)
    (hnew : ∀ q ∈ s.posts, q.id ≠ post.id) : (createPost post).run.eval (Store.perform db (.ok ())) s =
      (.ok (), ((db.membersOf post.channelId).filter (· ≠ post.userId)).foldl
        (fun s v => countMember post.channelId teamId v s) (storePost s post)) := by
  have hchannel : post.channelId ∈ db.teams := AList.lookup_isSome.1 (by rw [hteam]; rfl)
  let s₁ : Store := { s with posts := s.posts ++ [{ post with deleted := false }] }
  let s₂ : Store := { s₁ with reads := s₁.reads.insert (post.userId, post.channelId) post.seq }
  have hinsert : (query (.insertPost post)).run.eval (Store.perform db (.ok ())) s = (.ok (some ()), s₁) := by
    show (Except.ok (s.insertPost db post).1, (s.insertPost db post).2) = _
    rw [Store.insertPost, if_pos ⟨hchannel, hnew⟩]
  have hselect : (fetchTeamId post.channelId).run.eval (Store.perform db (.ok ())) s₁ = (.ok teamId, s₁) := by
    have hquery : (query (.selectTeam post.channelId)).run.eval (Store.perform db (.ok ())) s₁ = (.ok (some teamId), s₁) :=
      congrArg (fun team => (Except.ok team, s₁)) hteam
    unfold fetchTeamId
    rw [Prog.eval_run_bind, hquery]
    rfl
  have hposition : (writePosition post.userId post.channelId post.seq).run.eval (Store.perform db (.ok ())) s₁ =
      (.ok (), s₂) := by
    have hquery : (query (.upsertRead post.userId post.channelId post.seq)).run.eval (Store.perform db (.ok ())) s₁ =
        (.ok (some ()), s₂) := by
      show (Except.ok (s₁.upsertRead db post.userId post.channelId post.seq).1,
        (s₁.upsertRead db post.userId post.channelId post.seq).2) = _
      rw [Store.upsertRead, if_pos hchannel]
    unfold writePosition
    rw [Prog.eval_run_bind, hquery]
    rfl
  unfold createPost
  rw [Prog.eval_run_bind, hinsert]
  show (incrementUnreads post.channelId post.userId post.seq).run.eval _ s₁ = _
  unfold incrementUnreads
  rw [Prog.eval_run_bind, hselect]
  dsimp only
  rw [Prog.eval_run_bind, hposition]
  exact Prog.eval_run_forM (fun _ _ => eval_incrementMember _) _ (storePost s post)

theorem hash_countMember {memberId : Uuid} : (countMember channelId teamId memberId s).hash key =
    if key = .channel memberId channelId ∨
      key = .team memberId teamId then countUp (s.hash key) else s.hash key := by
  have hcounted : (countMember channelId teamId memberId s).hash key =
      (countHash (.team memberId teamId) (countHash (.channel memberId channelId)
        ((s.incr (.channel memberId channelId)).incr (.team memberId teamId)))).hash key := rfl
  have hincr : ∀ key, ((s.incr (.channel memberId channelId)).incr (.team memberId teamId)).hash key = s.hash key :=
    fun _ => rfl
  rw [hcounted, countHash, hash_incrementHash, countHash, hash_incrementHash, hash_incrementHash]
  simp only [hincr]
  by_cases hteam : key = .team memberId teamId
  · subst hteam
    simp
  · simp only [hteam, if_false, or_false]
    split
    · next h => rw [h]
    · rfl

theorem hash_foldl_countMember {vs : List Uuid} (hvs : vs.Nodup)
    (hkey : key = .channel userId channelId ∨ key = .team userId teamId) :
    (vs.foldl (fun s v => countMember channelId teamId v s) s).hash key =
      if userId ∈ vs then countUp (s.hash key) else s.hash key := by
  have howner : ∀ v, (key = .channel v channelId ∨ key = .team v teamId) ↔ v = userId := by
    intro v
    rcases hkey with rfl | rfl
    · simp [eq_comm]
    · simp [eq_comm]
  induction vs generalizing s with
  | nil => simp
  | cons v vs ih =>
    obtain ⟨hv, hvs⟩ := List.nodup_cons.1 hvs
    rw [List.foldl_cons, ih hvs, hash_countMember]
    simp only [howner]
    by_cases h : v = userId
    · subst h
      rw [if_neg hv, if_pos rfl, if_pos List.mem_cons_self]
    · rw [if_neg h]
      simp [List.mem_cons, Ne.symm h]

theorem countHash_rows (key : CountKey) (s : Store) :
    (countHash key s).posts = s.posts ∧ (countHash key s).reads = s.reads := by
  unfold countHash Store.hset Store.hincrby
  exact ⟨rfl, rfl⟩

theorem countMember_rows (channelId teamId v : Uuid) (s : Store) :
    (countMember channelId teamId v s).posts = s.posts ∧ (countMember channelId teamId v s).reads = s.reads := by
  let s₁ := (s.incr (.channel v channelId)).incr (.team v teamId)
  obtain ⟨hposts₁, hreads₁⟩ : s₁.posts = s.posts ∧ s₁.reads = s.reads := ⟨rfl, rfl⟩
  obtain ⟨hposts₂, hreads₂⟩ := countHash_rows (.channel v channelId) s₁
  obtain ⟨hposts₃, hreads₃⟩ := countHash_rows (.team v teamId) (countHash (.channel v channelId) s₁)
  unfold countMember Store.send Store.saddDirty
  exact ⟨hposts₃.trans (hposts₂.trans hposts₁), hreads₃.trans (hreads₂.trans hreads₁)⟩

theorem foldl_countMember (channelId teamId : Uuid) (vs : List Uuid) (s : Store) :
    (vs.foldl (fun s v => countMember channelId teamId v s) s).posts = s.posts ∧
      (vs.foldl (fun s v => countMember channelId teamId v s) s).reads = s.reads := by
  induction vs generalizing s with
  | nil => exact ⟨rfl, rfl⟩
  | cons v vs ih =>
    obtain ⟨hposts, hreads⟩ := countMember_rows channelId teamId v s
    obtain ⟨hposts', hreads'⟩ := ih (countMember channelId teamId v s)
    rw [List.foldl_cons]
    exact ⟨hposts'.trans hposts, hreads'.trans hreads⟩

theorem mem_membersOf {member : ChannelMember} (h : db.members.lookup (channelId, userId) = some member) :
    userId ∈ db.membersOf channelId :=
  Assoc.mem_sndKeys.2 (AList.lookup_isSome.1 (by rw [h]; rfl))

/-- What a new post does to what is computed and to what is cached. -/
structure Posted (db : Tables) (s s' : Store) (post : PostRow) (teamId : Uuid) : Prop where
  posts : s'.posts = s.posts ++ [{ post with deleted := false }]
  reads : s'.reads = s.reads.insert (post.userId, post.channelId) post.seq
  hash : ∀ userId member key, db.members.lookup (post.channelId, userId) = some member →
    key = .channel userId post.channelId ∨ key = .team userId teamId →
      s'.hash key = if userId ≠ post.userId then countUp (s.hash key) else s.hash key

theorem posted_afterPost {post : PostRow} (hteam : db.teams.lookup post.channelId = some teamId)
    (hnew : ∀ q ∈ s.posts, q.id ≠ post.id) : Posted db s (afterPost db s post) post teamId := by
  unfold afterPost
  rw [eval_createPost hteam hnew]
  obtain ⟨hposts, hreads⟩ := foldl_countMember post.channelId teamId
    ((db.membersOf post.channelId).filter (· ≠ post.userId)) (storePost s post)
  refine ⟨hposts, hreads, fun v member key hmember hkey => ?_⟩
  have hnodup : (db.membersOf post.channelId).Nodup := Assoc.nodup_sndKeys
  rw [hash_foldl_countMember (hnodup.filter _) hkey]
  simp only [List.mem_filter, decide_eq_true_eq, mem_membersOf hmember, true_and]
  rfl

end Cached

/-! ### A member who is counted up -/

section Others

variable {db : Tables} {s s' : Store} {post : PostRow} {userId teamId : Uuid} {member : ChannelMember}

theorem lookup_countUp {hash : Assoc String Int} {field : String} : (countUp hash).lookup field =
    if field = "version" then some v2SchemaVersion
    else if field = "msg_count" ∨ field = "msg_count_root" then some ((hash.lookup field).getD 0 + 1)
    else hash.lookup field := by
  unfold countUp
  simp only [Assoc.lookup_insert_eq]
  by_cases hv : field = "version"
  · simp [hv]
  · by_cases hr : field = "msg_count_root"
    · subst hr
      simp
    · by_cases hm : field = "msg_count"
      · subst hm
        simp
      · simp [hv, hr, hm]

theorem cachedChannel_countUp {channelId : Uuid} {channel : ChannelUnreadV2}
    (hhash : s'.hash (.channel userId channelId) = countUp (s.hash (.channel userId channelId)))
    (h : s.cachedChannel userId channelId = some channel) : s'.cachedChannel userId channelId =
      some { channel with
        msgCount := channel.msgCount + 1
        msgCountRoot := channel.msgCountRoot + 1
        version := v2SchemaVersion } := by
  unfold Store.cachedChannel ChannelUnreadV2.ofValues channelFields at h ⊢
  split at h
  · cases h
  · cases h
    simp [hhash, lookup_countUp]

theorem cachedTeam_countUp {team : TeamUnreadV2}
    (hhash : s'.hash (.team userId teamId) = countUp (s.hash (.team userId teamId)))
    (h : s.cachedTeam userId teamId = some team) : s'.cachedTeam userId teamId =
      some { team with
        msgCount := team.msgCount + 1
        msgCountRoot := team.msgCountRoot + 1
        version := v2SchemaVersion } := by
  have hkeys : (countUp (s.hash (.team userId teamId))).keys ≠ [] := by
    refine List.ne_nil_of_mem (a := "version") (AList.mem_keys.2 (AList.lookup_isSome.1 ?_))
    rw [lookup_countUp]
    rfl
  unfold Store.cachedTeam at h ⊢
  dsimp only at h ⊢
  split at h
  · cases h
  · cases h
    rw [hhash, if_neg hkeys]
    simp [lookup_countUp]

theorem unreadPosts_other (h : Posted db s s' post teamId) (hu : userId ≠ post.userId) (c : Uuid) :
    s'.unreadPosts userId c = s.unreadPosts userId c ++
      if c = post.channelId ∧ s.position userId c < post.seq then [{ post with deleted := false }] else [] := by
  have hposition : s'.position userId c = s.position userId c := by
    unfold Store.position
    rw [h.reads, Assoc.lookup_insert_eq, if_neg fun heq => hu (congrArg Prod.fst heq)]
  unfold Store.unreadPosts
  rw [h.posts, List.filter_append, hposition]
  congr 1
  by_cases hc : c = post.channelId ∧ s.position userId c < post.seq
  · rw [if_pos hc]
    refine List.filter_eq_self.2 fun q hq => ?_
    rw [List.mem_singleton.1 hq]
    exact decide_eq_true ⟨hc.1.symm, rfl, hc.2⟩
  · rw [if_neg hc]
    refine List.filter_eq_nil_iff.2 fun q hq hp => hc ?_
    rw [List.mem_singleton.1 hq] at hp
    have hp' := of_decide_eq_true hp
    exact ⟨hp'.1.symm, hp'.2.2⟩

theorem add_ofPosts_plain {c : Counters} {username : String} {p : PostRow} (hroot : p.rootPostId = none)
    (hmentions : p.mentions username = false) : c.add (.ofPosts username [p]) =
      { c with msgCount := c.msgCount + 1, msgCountRoot := c.msgCountRoot + 1 } := by
  unfold Counters.add Counters.ofPosts count PostRow.urgent
  simp [hroot, hmentions]

theorem ofRow_add_iff {config : UnreadConfig} {channelId : Uuid} {row : ChannelRow} {username : String} {p : PostRow} :
    ({ ChannelUnreadV2.ofRow config channelId (some row) with
        msgCount := row.counters.msgCount + 1
        msgCountRoot := row.counters.msgCountRoot + 1
        version := v2SchemaVersion } : ChannelUnreadV2) =
      .ofRow config channelId (some { row with counters := row.counters.add (.ofPosts username [p]) }) ↔
        p.rootPostId = none ∧ p.mentions username = false := by
  constructor
  · intro h
    have hroot := congrArg ChannelUnreadV2.msgCountRoot h
    have hmentions := congrArg ChannelUnreadV2.mentionCount h
    unfold ChannelUnreadV2.ofRow Counters.add Counters.ofPosts count at hroot hmentions
    simp at hroot hmentions
    exact ⟨hroot, hmentions⟩
  · rintro ⟨hroot, hmentions⟩
    rw [add_ofPosts_plain hroot hmentions]
    rfl

theorem channel_other_iff (h : Posted db s s' post teamId)
    (hmember : db.members.lookup (post.channelId, userId) = some member) (hu : userId ≠ post.userId)
    (hcached : s.cachedChannel userId post.channelId = some (db.channelFromDb s userId post.channelId)) :
    s'.cachedChannel userId post.channelId = some (db.channelFromDb s' userId post.channelId) ↔
      s.position userId post.channelId < post.seq ∧ post.rootPostId = none ∧
        post.mentions (db.username userId) = false := by
  have hhash := (h.hash userId member _ hmember (.inl rfl)).trans (if_pos hu)
  have hposts := unreadPosts_other h hu post.channelId
  rw [cachedChannel_countUp hhash hcached, Option.some_inj]
  unfold Tables.channelFromDb Tables.channelUnread
  rw [hmember, Option.map_some, Option.map_some, hposts, ofPosts_append]
  by_cases hunread : s.position userId post.channelId < post.seq
  · rw [if_pos ⟨rfl, hunread⟩, and_iff_right hunread]
    exact ofRow_add_iff
  · rw [if_neg fun hp => hunread hp.2]
    constructor
    · intro heq
      have hcount := congrArg ChannelUnreadV2.msgCount heq
      simp [ChannelUnreadV2.ofRow, Counters.add, Counters.ofPosts, count] at hcount
    · exact fun hp => absurd hp.1 hunread

theorem followedThreads_append {posts : List PostRow} (hposts : s'.posts = s.posts ++ posts)
    (hthreads : ∀ tm ∈ db.threads, ∃ q ∈ s.posts, q.id = tm.postId) :
    db.followedThreads s' userId teamId = db.followedThreads s userId teamId := by
  refine List.filter_congr fun tm htm => ?_
  obtain ⟨q, hq, hid⟩ := hthreads tm htm
  have hfound : (s.posts.find? fun p => decide (p.id = tm.postId)).isSome := by
    rw [List.find?_isSome]
    exact ⟨q, hq, decide_eq_true hid⟩
  rw [hposts, List.find?_append]
  obtain ⟨found, hfound⟩ := Option.isSome_iff_exists.1 hfound
  rw [hfound, Option.some_or]

theorem teamThreads_of_root (h : Posted db s s' post teamId) (hroot : post.rootPostId = none) {username : String}
    (hthreads : ∀ tm ∈ db.threads, ∃ q ∈ s.posts, q.id = tm.postId) :
    db.teamThreads s' userId teamId username = db.teamThreads s userId teamId username := by
  have hreplies : ∀ tm, Tables.urgentReplies s' tm username = Tables.urgentReplies s tm username := by
    intro tm
    unfold Tables.urgentReplies
    rw [h.posts, count_append]
    simp [count, hroot]
  unfold Tables.teamThreads
  rw [followedThreads_append h.posts hthreads]
  simp only [hreplies]

theorem team_other_iff (h : Posted db s s' post teamId) (hteam : db.teams.lookup post.channelId = some teamId)
    (hmember : db.members.lookup (post.channelId, userId) = some member) (hu : userId ≠ post.userId)
    (hthreads : ∀ tm ∈ db.threads, ∃ q ∈ s.posts, q.id = tm.postId)
    (hunread : s.position userId post.channelId < post.seq) (hroot : post.rootPostId = none)
    (hmentions : post.mentions (db.username userId) = false)
    (hcached : s.cachedTeam userId teamId = some (db.teamFromDb s userId teamId)) :
    s'.cachedTeam userId teamId = some (db.teamFromDb s' userId teamId) ↔
      markUnread member.notifyProps ≠ "mention" := by
  have hhash := (h.hash userId member _ hmember (.inr rfl)).trans (if_pos hu)
  have hposts := unreadPosts_other h hu post.channelId
  rw [if_pos ⟨rfl, hunread⟩] at hposts
  have hothers : db.otherChannels s' userId teamId (db.username userId) post.channelId =
      db.otherChannels s userId teamId (db.username userId) post.channelId := by
    refine otherChannels_congr fun c hc => ?_
    rw [unreadPosts_other h hu c, if_neg fun hp => hc hp.1, List.append_nil]
  rw [cachedTeam_countUp hhash hcached, Option.some_inj]
  unfold Tables.teamFromDb TeamUnreadV2.ofRows
  rw [teamThreads_of_root h hroot hthreads, foldl_addChannel, foldl_addChannel]
  simp only [rowSum_perm (teamChannels_perm hteam hmember), rowSum_cons, hothers, hposts, ofPosts_append,
    add_ofPosts_plain (p := { post with deleted := false }) hroot hmentions, countedFor]
  by_cases hmuted : markUnread member.notifyProps = "mention"
  · simp [hmuted]
  · simp only [hmuted, ne_eq, not_false_eq_true, if_true, iff_true]
    congr 1 <;> omega

theorem upToDate_other_iff (h : Posted db s s' post teamId) (hteam : db.teams.lookup post.channelId = some teamId)
    (hmember : db.members.lookup (post.channelId, userId) = some member) (hu : userId ≠ post.userId)
    (hthreads : ∀ tm ∈ db.threads, ∃ q ∈ s.posts, q.id = tm.postId)
    (hcached : UpToDate db s userId post.channelId teamId) :
    UpToDate db s' userId post.channelId teamId ↔ PlainMessage db s post userId member := by
  obtain ⟨hchannel, hteamCached⟩ := upToDate_iff.1 hcached
  rw [upToDate_iff, channel_other_iff h hmember hu hchannel]
  constructor
  · rintro ⟨⟨hunread, hroot, hmentions⟩, hteam'⟩
    exact ⟨hroot, hmentions, hunread,
      (team_other_iff h hteam hmember hu hthreads hunread hroot hmentions hteamCached).1 hteam'⟩
  · rintro ⟨hroot, hmentions, hunread, hmuted⟩
    exact ⟨⟨hunread, hroot, hmentions⟩,
      (team_other_iff h hteam hmember hu hthreads hunread hroot hmentions hteamCached).2 hmuted⟩

end Others

/-! ### The author -/

section Author

variable {db : Tables} {s s' : Store} {post : PostRow} {teamId : Uuid} {member : ChannelMember}

theorem filter_eq_of_length {α : Type} {l : List α} {p q : α → Bool}
    (h : (∀ a, p a = true → q a = true) ∨ ∀ a, q a = true → p a = true)
    (hlen : (l.filter p).length = (l.filter q).length) : l.filter p = l.filter q := by
  have hnarrow : ∀ {p q : α → Bool}, (∀ a, p a = true → q a = true) → (l.filter p).Sublist (l.filter q) := by
    intro p q h
    have hboth : l.filter p = (l.filter q).filter p := by
      rw [List.filter_filter]
      refine List.filter_congr fun a _ => ?_
      cases hp : p a with
      | false => rfl
      | true => rw [h a hp]; rfl
    rw [hboth]
    exact List.filter_sublist
  rcases h with h | h
  · exact (hnarrow h).eq_of_length hlen
  · exact ((hnarrow h).eq_of_length hlen.symm).symm

theorem unreadPosts_author (h : Posted db s s' post teamId) : s'.unreadPosts post.userId post.channelId =
    s.posts.filter fun q => q.channelId = post.channelId ∧ q.deleted = false ∧ post.seq < q.seq := by
  have hposition : s'.position post.userId post.channelId = post.seq := by
    unfold Store.position
    rw [h.reads, Assoc.lookup_insert_self]
    rfl
  unfold Store.unreadPosts
  rw [h.posts, List.filter_append, hposition]
  have hnew : ([{ post with deleted := false }] : List PostRow).filter (fun q =>
      q.channelId = post.channelId ∧ q.deleted = false ∧ post.seq < q.seq) = [] := by
    refine List.filter_eq_nil_iff.2 fun q hq hp => ?_
    rw [List.mem_singleton.1 hq] at hp
    exact lt_irrefl _ (of_decide_eq_true hp).2.2
  rw [hnew, List.append_nil]

theorem unreadPosts_elsewhere (h : Posted db s s' post teamId) {c : Uuid} (hc : c ≠ post.channelId) :
    s'.unreadPosts post.userId c = s.unreadPosts post.userId c := by
  have hposition : s'.position post.userId c = s.position post.userId c := by
    unfold Store.position
    rw [h.reads, Assoc.lookup_insert_eq, if_neg fun heq => hc (congrArg Prod.snd heq)]
  unfold Store.unreadPosts
  rw [h.posts, List.filter_append, hposition]
  have hnew : ([{ post with deleted := false }] : List PostRow).filter (fun q =>
      q.channelId = c ∧ q.deleted = false ∧ s.position post.userId c < q.seq) = [] := by
    refine List.filter_eq_nil_iff.2 fun q hq hp => ?_
    rw [List.mem_singleton.1 hq] at hp
    exact hc (of_decide_eq_true hp).1.symm
  rw [hnew, List.append_nil]

theorem unreadPosts_author_iff (h : Posted db s s' post teamId) :
    s'.unreadPosts post.userId post.channelId = s.unreadPosts post.userId post.channelId ↔
      ∀ q ∈ s.posts, q.channelId = post.channelId → q.deleted = false →
        (s.position post.userId post.channelId < q.seq ↔ post.seq < q.seq) := by
  rw [unreadPosts_author h]
  unfold Store.unreadPosts
  constructor
  · intro hsame q hq hc hd
    constructor
    · intro hlt
      have hmem : q ∈ s.posts.filter fun q => q.channelId = post.channelId ∧ q.deleted = false ∧
          s.position post.userId post.channelId < q.seq :=
            List.mem_filter.2 ⟨hq, decide_eq_true ⟨hc, hd, hlt⟩⟩
      rw [← hsame] at hmem
      exact (of_decide_eq_true (List.mem_filter.1 hmem).2).2.2
    · intro hlt
      have hmem : q ∈ s.posts.filter fun q => q.channelId = post.channelId ∧ q.deleted = false ∧
        post.seq < q.seq :=
        List.mem_filter.2 ⟨hq, decide_eq_true ⟨hc, hd, hlt⟩⟩
      rw [hsame] at hmem
      exact (of_decide_eq_true (List.mem_filter.1 hmem).2).2.2
  · intro hsame
    refine List.filter_congr fun q hq => ?_
    rw [decide_eq_decide]
    constructor
    · rintro ⟨hc, hd, hlt⟩
      exact ⟨hc, hd, (hsame q hq hc hd).2 hlt⟩
    · rintro ⟨hc, hd, hlt⟩
      exact ⟨hc, hd, (hsame q hq hc hd).1 hlt⟩

theorem channel_author_iff (h : Posted db s s' post teamId)
    (hmember : db.members.lookup (post.channelId, post.userId) = some member)
    (hcached : s.cachedChannel post.userId post.channelId = some (db.channelFromDb s post.userId post.channelId)) :
    s'.cachedChannel post.userId post.channelId = some (db.channelFromDb s' post.userId post.channelId) ↔
      s'.unreadPosts post.userId post.channelId = s.unreadPosts post.userId post.channelId := by
  have hhash := (h.hash post.userId member _ hmember (.inl rfl)).trans (if_neg (not_not.2 rfl))
  have hsame : s'.cachedChannel post.userId post.channelId = s.cachedChannel post.userId post.channelId := by
    unfold Store.cachedChannel
    rw [hhash]
  rw [hsame, hcached, Option.some_inj]
  unfold Tables.channelFromDb Tables.channelUnread
  rw [hmember, Option.map_some, Option.map_some]
  constructor
  · intro heq
    have hcount := congrArg ChannelUnreadV2.msgCount heq
    have hlen : (s'.unreadPosts post.userId post.channelId).length =
        (s.unreadPosts post.userId post.channelId).length := by
      simpa [ChannelUnreadV2.ofRow, Counters.ofPosts, count] using hcount.symm
    rw [unreadPosts_author h] at hlen ⊢
    refine filter_eq_of_length ?_ hlen
    simp only [decide_eq_true_eq]
    rcases le_total post.seq (s.position post.userId post.channelId) with hle | hle
    · exact .inr fun q hq => ⟨hq.1, hq.2.1, hle.trans_lt hq.2.2⟩
    · exact .inl fun q hq => ⟨hq.1, hq.2.1, hle.trans_lt hq.2.2⟩
  · intro hposts
    rw [hposts]

theorem sum_map_ite {α : Type} (l : List α) (f : α → Int) (p : α → Bool) :
    (l.map fun a => f a + if p a then 1 else 0).sum = (l.map f).sum + (l.countP p : ℕ) := by
  induction l with
  | nil => rfl
  | cons a l ih =>
    simp only [List.map_cons, List.sum_cons, List.countP_cons, ih]
    split <;> push_cast <;> omega

def urgentReply (post : PostRow) (username : String) (tm : ThreadMembership) : Bool :=
  decide (post.rootPostId = some tm.postId ∧ ∀ readAt ∈ tm.lastReadAt, readAt < post.createdAt) && post.urgent username

theorem teamThreads_author (h : Posted db s s' post teamId) {username : String} {userId : Uuid}
    (hthreads : ∀ tm ∈ db.threads, ∃ q ∈ s.posts, q.id = tm.postId) :
    db.teamThreads s' userId teamId username =
      { db.teamThreads s userId teamId username with
        urgentMentionCount := (db.teamThreads s userId teamId username).urgentMentionCount +
          ((db.followedThreads s userId teamId).countP (urgentReply post username) : ℕ) } := by
  have hreplies : ∀ tm, Tables.urgentReplies s' tm username =
      Tables.urgentReplies s tm username + if urgentReply post username tm then 1 else 0 := by
    intro tm
    unfold Tables.urgentReplies
    rw [h.posts, count_append]
    congr 1
    unfold count urgentReply
    rw [List.countP_singleton, Nat.cast_ite]
    simp only [true_and]
    rfl
  unfold Tables.teamThreads
  rw [followedThreads_append h.posts hthreads]
  simp only [hreplies, sum_map_ite]

theorem team_author_iff (h : Posted db s s' post teamId)
    (hmember : db.members.lookup (post.channelId, post.userId) = some member)
    (hthreads : ∀ tm ∈ db.threads, ∃ q ∈ s.posts, q.id = tm.postId)
    (hposts : s'.unreadPosts post.userId post.channelId = s.unreadPosts post.userId post.channelId)
    (hcached : s.cachedTeam post.userId teamId = some (db.teamFromDb s post.userId teamId)) :
    s'.cachedTeam post.userId teamId = some (db.teamFromDb s' post.userId teamId) ↔
      (db.config.postPriorityEnabled = true → ∀ tm ∈ db.followedThreads s post.userId teamId,
        urgentReply post (db.username post.userId) tm = false) := by
  have hhash := (h.hash post.userId member _ hmember (.inr rfl)).trans (if_neg (not_not.2 rfl))
  have hsame : s'.cachedTeam post.userId teamId = s.cachedTeam post.userId teamId := by
    unfold Store.cachedTeam
    rw [hhash]
  have hall : ∀ c, s'.unreadPosts post.userId c = s.unreadPosts post.userId c := by
    intro c
    by_cases hc : c = post.channelId
    · rw [hc, hposts]
    · exact unreadPosts_elsewhere h hc
  have hrows : db.teamChannels s' post.userId teamId (db.username post.userId) =
      db.teamChannels s post.userId teamId (db.username post.userId) := by
    unfold Tables.teamChannels
    simp only [hall]
  rw [hsame, hcached, Option.some_inj]
  unfold Tables.teamFromDb TeamUnreadV2.ofRows
  rw [hrows, teamThreads_author h hthreads, foldl_addChannel, foldl_addChannel]
  simp only [TeamUnreadV2.mk.injEq, true_and, and_true]
  cases db.config.postPriorityEnabled with
  | false => simp
  | true =>
    simp only [if_true, true_implies, left_eq_add, Nat.cast_eq_zero, List.countP_eq_zero, Bool.not_eq_true]

theorem upToDate_author_iff (h : Posted db s s' post teamId)
    (hmember : db.members.lookup (post.channelId, post.userId) = some member)
    (hthreads : ∀ tm ∈ db.threads, ∃ q ∈ s.posts, q.id = tm.postId)
    (hcached : UpToDate db s post.userId post.channelId teamId) :
    UpToDate db s' post.userId post.channelId teamId ↔ AuthorUnmoved db s post teamId := by
  obtain ⟨hchannel, hteamCached⟩ := upToDate_iff.1 hcached
  have hreplies : (∀ tm ∈ db.followedThreads s post.userId teamId,
      urgentReply post (db.username post.userId) tm = false) ↔
        ∀ tm ∈ db.followedThreads s post.userId teamId, post.rootPostId = some tm.postId →
          (∀ readAt ∈ tm.lastReadAt, readAt < post.createdAt) → post.urgent (db.username post.userId) = false := by
    refine forall₂_congr fun tm _ => ?_
    unfold urgentReply
    rw [Bool.and_eq_false_imp, decide_eq_true_eq, and_imp]
  rw [upToDate_iff, channel_author_iff h hmember hchannel]
  constructor
  · rintro ⟨hposts, hteam'⟩
    exact ⟨(unreadPosts_author_iff h).1 hposts, fun hpriority =>
      hreplies.1 ((team_author_iff h hmember hthreads hposts hteamCached).1 hteam' hpriority)⟩
  · rintro ⟨hposition, hurgent⟩
    have hposts := (unreadPosts_author_iff h).2 hposition
    exact ⟨hposts, (team_author_iff h hmember hthreads hposts hteamCached).2 fun hpriority =>
      hreplies.2 (hurgent hpriority)⟩

end Author

/-- What is cached for a member stays what would be computed, through a new post, exactly if the post is a plain message
for the member; and for the author, if the position moves past nothing. -/
theorem upToDate_createPost_iff (db : Tables) (s : Store) (post : PostRow) (userId teamId : Uuid) (member : ChannelMember)
    (hteam : db.teams.lookup post.channelId = some teamId)
    (hmember : db.members.lookup (post.channelId, userId) = some member)
    (hnew : ∀ q ∈ s.posts, q.id ≠ post.id) (hthreads : ∀ tm ∈ db.threads, ∃ q ∈ s.posts, q.id = tm.postId)
    (hcached : UpToDate db s userId post.channelId teamId) :
    UpToDate db (afterPost db s post) userId post.channelId teamId ↔
      if userId = post.userId then AuthorUnmoved db s post teamId else PlainMessage db s post userId member := by
  have h := posted_afterPost hteam hnew
  by_cases hu : userId = post.userId
  · subst hu
    rw [if_pos rfl]
    exact upToDate_author_iff h hmember hthreads hcached
  · rw [if_neg hu]
    exact upToDate_other_iff h hteam hmember hu hthreads hcached

/-- User `2` has read the one post in the channel. -/
def readPair : Store := { Store.empty with posts := [pairPost 1 3], reads := AList.insert (2, 5) 3 ∅ }

/-- What is computed for user `2` is cached. -/
def cachedPair : Store :=
  { readPair with
    hashes := AList.insert (.channel 2 5) ((pair.channelFromDb readPair 2 5).values.foldl (fun h v => h.insert v.1 v.2) ∅)
      (AList.insert (.team 2 9) ((pair.teamFromDb readPair 2 9).values.foldl (fun h v => h.insert v.1 v.2) ∅) ∅) }

theorem cachedPair_upToDate : UpToDate pair cachedPair 2 5 9 := upToDate_iff.2 (by decide +kernel)

/-- A reply is counted as a root message. -/
theorem reply_not_upToDate : UpToDate pair cachedPair 2 5 9 ∧
    ¬ UpToDate pair (afterPost pair cachedPair { pairPost 1 10 with rootPostId := some 3 }) 2 5 9 :=
  ⟨cachedPair_upToDate, fun h => absurd (upToDate_iff.1 h) (by decide +kernel)⟩

theorem message_upToDate : UpToDate pair (afterPost pair cachedPair (pairPost 1 10)) 2 5 9 ↔
    PlainMessage pair cachedPair (pairPost 1 10) 2 ⟨none, false, .obj []⟩ :=
  upToDate_createPost_iff pair cachedPair (pairPost 1 10) 2 9 ⟨none, false, .obj []⟩ rfl rfl (by decide) (by decide)
    cachedPair_upToDate

end Rustchat.Unreads
