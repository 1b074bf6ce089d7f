import Rustchat.ChannelPages

/-!
# The posts around the first unread one (`api/v4/posts/unread.rs`)

`get_posts_around_unread` answers the last posts up to the read position of a user and the first ones above it, each
with a limit, in one list from the newest to the oldest. The limits of a request are clamped first:
`UnreadWindow.getPostsAroundUnread_around` is about what is left of them. The reactions in the answer are left out.
-/

namespace Rustchat

namespace UnreadWindow

open ChannelPages (liveRows listed mem_liveRows nodup_ids)

def defaultLimit : Int := 60

structure PostsUnreadQuery where
  limitBefore : Int := defaultLimit
  limitAfter : Int := defaultLimit

structure PostsUnreadPath where
  userId : String
  channelId : String

def clampUnreadLimits (query : PostsUnreadQuery) : ℕ × ℕ :=
  ((max 0 (min query.limitBefore 200)).toNat, (max 1 (min query.limitAfter 200)).toNat)

/-- The orders in which the two queries and their union have rows of one sequence number. -/
structure Ties where
  before : Uuid ↪ ℕ
  after : Uuid ↪ ℕ
  union : Uuid ↪ ℕ

def readRows (db : PostDb) (channelId : Uuid) (lastReadSeq : Int) : List (Uuid × Post) :=
  (liveRows db channelId).filter fun row => row.2.seq ≤ lastReadSeq

def unreadRows (db : PostDb) (channelId : Uuid) (lastReadSeq : Int) : List (Uuid × Post) :=
  (liveRows db channelId).filter fun row => lastReadSeq < row.2.seq

variable (ties : Ties)

/-- `.. UNION ALL .. ORDER BY seq DESC` -/
def aroundUnread (db : PostDb) (channelId : Uuid) (lastReadSeq : Int) (limits : ℕ × ℕ) : List (Uuid × Post) :=
  let below := Page.page (fun row => threadKey ties.before row.1 (-row.2.seq)) limits.1
    (readRows db channelId lastReadSeq)
  let above := Page.page (fun row => threadKey ties.after row.1 row.2.seq) limits.2
    (unreadRows db channelId lastReadSeq)
  Page.orderBy (fun row => threadKey ties.union row.1 (-row.2.seq)) (below ++ above)

/-- The read position of a user in a channel; a row may have none, and there may be no row. -/
def lastReadSeq (reads : Assoc (Uuid × Uuid) (Option Int)) (userId channelId : Uuid) : Int :=
  (reads.lookup (userId, channelId)).join.getD 0

def getPostsAroundUnread (codecs : Codecs) (db : PostDb) (reads : Assoc (Uuid × Uuid) (Option Int)) (authUserId : Uuid)
    (canManageUsers : Bool) (path : PostsUnreadPath) (query : PostsUnreadQuery) : Except AppError PostList :=
  ((resolveUserId codecs.parseUuid authUserId canManageUsers path.userId).mapError fun _ =>
    AppError.forbidden "Cannot access another user's posts").bind fun userId =>
  (okOr (parseMmOrUuid codecs.parseUuid path.channelId) (.badRequest "Invalid channel_id")).bind fun channelId =>
  (ensure ((channelId, userId) ∈ db.members) (.forbidden "Not a member of this channel")).map fun _ =>
    let rows := aroundUnread ties db channelId (lastReadSeq reads userId channelId) (clampUnreadLimits query)
    ChannelPages.postList ⟨none, none, none, none, none⟩ (rows.map (listed db))

/-- The last `before` live posts up to a position and the first `after` ones above it. -/
structure Around (db : PostDb) (channelId : Uuid) (position : Int) (before after : ℕ) (rows : List (Uuid × Post)) :
    Prop where
  parts : ∃ below above, rows.Perm (below ++ above) ∧
    Page.Firsts (fun row => -row.2.seq) before (readRows db channelId position) below ∧
    Page.Firsts (fun row => row.2.seq) after (unreadRows db channelId position) above
  newestFirst : rows.Pairwise fun a b => b.2.seq ≤ a.2.seq
  nodup : (rows.map Prod.fst).Nodup
  contiguous : ∀ a ∈ rows, ∀ b ∈ rows, ∀ row ∈ liveRows db channelId,
    a.2.seq < row.2.seq → row.2.seq < b.2.seq → row ∈ rows
  firstUnread : 1 ≤ after → unreadRows db channelId position ≠ [] →
    ∃ first ∈ rows, first ∈ unreadRows db channelId position ∧
      ∀ row ∈ unreadRows db channelId position, first.2.seq ≤ row.2.seq

def Answers (db : PostDb) (channelId : Uuid) (position : Int) (before after : ℕ) (list : PostList) : Prop :=
  ∃ rows, Around db channelId position before after rows ∧ list.order = rows.map (fun row => encodeMmId row.1) ∧
    ∀ row ∈ rows, list.posts.lookup (encodeMmId row.1) = some (listed db row).toMm

/-! ### The two queries -/

variable {ties} {db : PostDb} {channelId : Uuid} {position : Int} {before after : ℕ} {below above : List (Uuid × Post)}

theorem mem_readRows {row : Uuid × Post} :
    row ∈ readRows db channelId position ↔ row ∈ liveRows db channelId ∧ row.2.seq ≤ position := by
  simp [readRows]

theorem mem_unreadRows {row : Uuid × Post} :
    row ∈ unreadRows db channelId position ↔ row ∈ liveRows db channelId ∧ position < row.2.seq := by
  simp [unreadRows]

section Parts

variable (hbelow : Page.Firsts (fun row => -row.2.seq) before (readRows db channelId position) below)
  (habove : Page.Firsts (fun row => row.2.seq) after (unreadRows db channelId position) above)

include hbelow habove

theorem nodup_parts : ((below ++ above).map Prod.fst).Nodup := by
  rw [List.map_append, List.nodup_append]
  have hfilter (p : Uuid × Post → Bool) : (((liveRows db channelId).filter p).map Prod.fst).Nodup :=
    nodup_ids.sublist (List.filter_sublist.map _)
  refine ⟨hbelow.nodup_map (hfilter _), habove.nodup_map (hfilter _), ?_⟩
  intro id hid id' hid' heq
  obtain ⟨a, ha, rfl⟩ := List.mem_map.1 hid
  obtain ⟨b, hb, rfl⟩ := List.mem_map.1 hid'
  obtain ⟨hlive, hle⟩ := mem_readRows.1 (hbelow.mem ha)
  obtain ⟨hlive', hlt⟩ := mem_unreadRows.1 (habove.mem hb)
  have hpost : some a.2 = some b.2 := by rw [← (mem_liveRows.1 hlive).1, ← (mem_liveRows.1 hlive').1, heq]
  rw [Option.some.inj hpost] at hle
  omega

/-- What is between two posts of the window is on the side of one of them, and listed before it. -/
theorem mem_between {a b row : Uuid × Post} (ha : a ∈ below ++ above) (hb : b ∈ below ++ above)
    (hrow : row ∈ liveRows db channelId) (har : a.2.seq < row.2.seq) (hrb : row.2.seq < b.2.seq) :
    row ∈ below ++ above := by
  rw [List.mem_append] at ha hb ⊢
  by_cases hside : row.2.seq ≤ position
  · left
    by_contra hout
    have hlow : a ∈ below := ha.resolve_right fun ha => by
      have hhigh := (mem_unreadRows.1 (habove.mem ha)).2
      omega
    have hle := hbelow.le_of_notMem (mem_readRows.2 ⟨hrow, hside⟩) hout hlow
    omega
  · right
    by_contra hout
    have hhigh : b ∈ above := hb.resolve_left fun hb => by
      have hlow := (mem_readRows.1 (hbelow.mem hb)).2
      omega
    have hle := habove.le_of_notMem (mem_unreadRows.2 ⟨hrow, by omega⟩) hout hhigh
    omega

end Parts

theorem around_aroundUnread (limits : ℕ × ℕ) :
    Around db channelId position limits.1 limits.2 (aroundUnread ties db channelId position limits) := by
  have hperm : (aroundUnread ties db channelId position limits).Perm _ := Page.orderBy_perm
  have hbelow := @firsts_threadPage _ ties.before (readRows db channelId position) Prod.fst (fun row => -row.2.seq) limits.1
  have habove := @firsts_threadPage _ ties.after (unreadRows db channelId position) Prod.fst (fun row => row.2.seq) limits.2
  refine ⟨⟨_, _, hperm, hbelow, habove⟩, ?_, ?_, ?_, ?_⟩
  · refine Page.pairwise_le_orderBy.imp fun {a b} hab => ?_
    have hle := (Prod.Lex.toLex_le_toLex'.1 hab).1
    omega
  · exact (hperm.map _).nodup_iff.2 (nodup_parts hbelow habove)
  · intro a ha b hb row hrow har hrb
    exact hperm.mem_iff.2 (mem_between hbelow habove (hperm.mem_iff.1 ha) (hperm.mem_iff.1 hb) hrow har hrb)
  · intro hafter hne
    obtain ⟨row, hrow⟩ := List.exists_mem_of_ne_nil _ hne
    obtain ⟨first, hfirst, hleast⟩ := habove.exists_first hafter hrow
    exact ⟨first, hperm.mem_iff.2 (List.mem_append_right _ hfirst), habove.mem hfirst, hleast⟩

/-! ### The answer -/

/-- A request that passes the checks is answered with the window of its limits, as they are clamped. -/
theorem getPostsAroundUnread_around (ties : Ties) (codecs : Codecs) (db : PostDb)
    (reads : Assoc (Uuid × Uuid) (Option Int)) (authUserId : Uuid) (canManageUsers : Bool) (path : PostsUnreadPath)
    (query : PostsUnreadQuery) (userId channelId : Uuid)
    (huser : resolveUserId codecs.parseUuid authUserId canManageUsers path.userId = .ok userId)
    (hchannel : parseMmOrUuid codecs.parseUuid path.channelId = some channelId)
    (hmember : (channelId, userId) ∈ db.members) :
    ∃ list, getPostsAroundUnread ties codecs db reads authUserId canManageUsers path query = .ok list ∧
      Answers db channelId (lastReadSeq reads userId channelId)
        (max 0 (min query.limitBefore 200)).toNat (max 1 (min query.limitAfter 200)).toNat list := by
  have hensure : ensure ((channelId, userId) ∈ db.members) (.forbidden "Not a member of this channel") = .ok () :=
    if_pos hmember
  have haround := @around_aroundUnread ties db channelId (lastReadSeq reads userId channelId) (clampUnreadLimits query)
  refine ⟨_, ?_, _, haround, ChannelPages.order_postList ⟨none, none, none, none, none⟩ _,
    fun row hrow => ChannelPages.lookup_postList haround.nodup hrow⟩
  simp only [getPostsAroundUnread, huser, Except.mapError, hchannel, okOr, Option.elim_some, Except.bind, hensure,
    Except.map]

def onePost : PostDb :=
  { ThreadRun.onePost with posts := AList.insert 8 ⟨5, 2, none, "a", .obj [], [], false, 1, none, none, 0, none, 1⟩ ∅ }

def byId : Ties := ⟨ThreadPages.byId, ThreadPages.byId, ThreadPages.byId⟩

/-- A post of user `2` with this number. -/
def numbered (seq : Int) : Post := ⟨5, 2, none, "a", .obj [], [], false, seq, none, none, 0, none, seq⟩

/-- A channel with four posts, of which user `2` has read two. -/
def fourPosts : PostDb :=
  { onePost with
    posts := AList.insert 11 (numbered 4) (AList.insert 10 (numbered 3) (AList.insert 9 (numbered 2)
      (AList.insert 8 (numbered 1) ∅))) }

def twoRead : Assoc (Uuid × Uuid) (Option Int) := AList.insert (2, 5) (some 2) ∅

/-- The last post that was read, and the first two that were not. -/
theorem fourPosts_around : ∃ list,
    getPostsAroundUnread byId ThreadRun.plainCodecs fourPosts twoRead 2 false ⟨"me", encodeMmId 5⟩ ⟨1, 2⟩ = .ok list ∧
      Answers fourPosts 5 (lastReadSeq twoRead 2 5) 1 2 list :=
  getPostsAroundUnread_around byId ThreadRun.plainCodecs fourPosts twoRead 2 false ⟨"me", encodeMmId 5⟩ ⟨1, 2⟩ 2 5 rfl
    (parse_encodeMmId ChannelPages.parseUuid_plainCodecs 5) (by decide)

/-- A request for no post above the read position is answered with one. -/
theorem none_asked_one_answered : ∃ list,
    getPostsAroundUnread byId ThreadRun.plainCodecs onePost ∅ 2 false ⟨"me", encodeMmId 5⟩ ⟨0, 0⟩ = .ok list ∧
      ¬ Answers onePost 5 (lastReadSeq ∅ 2 5) 0 0 list := by
  refine ⟨_, rfl, ?_⟩
  rintro ⟨rows, haround, horder, -⟩
  obtain ⟨below, above, hperm, hbelow, habove⟩ := haround.parts
  have hlength := hperm.length_eq
  rw [List.length_append, hbelow.length, habove.length, Nat.zero_min, Nat.zero_min, Nat.add_zero] at hlength
  rw [List.length_eq_zero_iff.1 hlength] at horder
  exact absurd horder (by decide)

end UnreadWindow

end Rustchat
