import Rustchat.ThreadAccess
import Rustchat.ThreadPages

/-!
# Paging through a channel (`get_posts` of `services/posts.rs` and `api/v4/channels/posts.rs`)

Behind a cursor both endpoints list the posts that are older, or newer, than the post of the cursor. Posts of one time
are neither: the pages list every live post once exactly if no page ends between two posts of one time
(`ChannelPages.enumerates_iff_parted`). The reactions in the answers are left out.
-/

namespace Rustchat

structure PostsQuery where
  page : Int
  perPage : Int
  since : Option Int
  before : Option Uuid
  after : Option Uuid

structure Pagination where
  page : Option ℕ
  perPage : Option ℕ
  before : Option String
  after : Option String
  since : Option Int

namespace ChannelPages

inductive Selection where
  -- with or without the deleted posts
  | since (time : Int) (deletedToo : Bool)
  | before (id : Uuid)
  | after (id : Uuid)
  | page (offset : Int)

/-- The posts of a channel that are not deleted. -/
def liveRows (db : PostDb) (channelId : Uuid) : List (Uuid × Post) :=
  Assoc.views (fun id post => if post.channelId = channelId ∧ post.deletedAt = none then some (id, post) else none)
    db.posts

variable (tie : Uuid ↪ ℕ)

/-- `ORDER BY p.created_at DESC` -/
def newestFirst (rows : List (Uuid × Post)) : List (Uuid × Post) :=
  Page.orderBy (fun row => threadKey tie row.1 (-row.2.createdAt)) rows

/-- `ORDER BY p.created_at ASC` -/
def oldestFirst (rows : List (Uuid × Post)) : List (Uuid × Post) :=
  Page.orderBy (fun row => threadKey tie row.1 row.2.createdAt) rows

def select (db : PostDb) (channelId : Uuid) (perPage : ℕ) : Selection → Except AppError (List (Uuid × Post))
  | .since time deletedToo =>
    let rows := Assoc.views (fun id post =>
      if post.channelId = channelId ∧ (deletedToo = true ∨ post.deletedAt = none) ∧
        (time ≤ post.createdAt ∨ post.editedAt.any (time ≤ ·)) then some (id, post) else none) db.posts
    .ok ((oldestFirst tie rows).take perPage)
  | .before id => (okOr (db.posts.lookup id) (.notFound "Before post not found")).map fun post =>
    (newestFirst tie ((liveRows db channelId).filter fun row => row.2.createdAt < post.createdAt)).take perPage
  | .after id => (okOr (db.posts.lookup id) (.notFound "After post not found")).map fun post =>
    (oldestFirst tie ((liveRows db channelId).filter fun row => post.createdAt < row.2.createdAt)).take perPage
  | .page offset =>
    if offset < 0 then .error .database
    else .ok (((newestFirst tie (liveRows db channelId)).drop offset.toNat).take perPage)

/-- A row with its author and its files. -/
def listed (db : PostDb) (row : Uuid × Post) : PostResponse :=
  { row.2.toResponse row.1 (db.users.lookup row.2.userId) with files := db.filesOf row.2.fileIds }

-- `DateTime::from_timestamp_millis`, and `Utc::now()` of a request
variable (fromMillis : Int → Option Int) (utcNow : Int)

/-- `services::posts::get_posts`: the posts, and how many there are in the channel. -/
def getPosts (db : PostDb) (channelId : Uuid) (query : PostsQuery) :
    Except AppError (List PostResponse × ℕ) :=
  let perPage := min (if 0 < query.perPage then query.perPage else 60) 200
  let offset := (query.page * perPage).bmod (2 ^ 64)
  let selection := match query.since, query.before, query.after with
    | some since, _, _ => .since ((fromMillis since).getD utcNow) true
    | none, some id, _ => .before id
    | none, none, some id => .after id
    | none, none, none => .page offset
  (select tie db channelId perPage.toNat selection).map fun rows =>
    (rows.map (listed db), (liveRows db channelId).length)

variable (codecs : Codecs)

def selectionV4 (pagination : Pagination) (perPage : ℕ) : Except AppError Selection :=
  match pagination.since, pagination.before, pagination.after with
  | some since, _, _ => .ok (.since ((fromMillis since).getD utcNow) false)
  | none, some before, _ =>
    (okOr (parseMmOrUuid codecs.parseUuid before) (.badRequest "Invalid before post_id")).map .before
  | none, none, some after =>
    (okOr (parseMmOrUuid codecs.parseUuid after) (.badRequest "Invalid after post_id")).map .after
  | none, none, none => .ok (.page (Int.bmod (pagination.page.getD 0 * perPage) (2 ^ 64)))

/-- The answer, with the last or the first post of the page as a hint. -/
def postList (pagination : Pagination) (posts : List PostResponse) : PostList :=
  let order := posts.map fun p => encodeMmId p.id
  { order
    posts := posts.foldl (fun posts p => posts.insert (encodeMmId p.id) p.toMm) ∅
    prevPostId := if pagination.before.isSome then order.getLast?.getD "" else ""
    nextPostId := if pagination.before.isSome then "" else if pagination.after.isSome then order.head?.getD "" else "" }

/-- `api::v4::channels::posts::get_posts` -/
def getPostsV4 (db : PostDb) (userId : Uuid) (channelId : String) (pagination : Pagination) :
    Except AppError PostList :=
  (okOr (parseMmOrUuid codecs.parseUuid channelId) (.badRequest "Invalid channel_id")).bind fun channel =>
  (ensure ((channel, userId) ∈ db.members) (.forbidden "Not a member of this channel")).bind fun _ =>
    let perPage := min (pagination.perPage.getD 60) 200
    (selectionV4 fromMillis utcNow codecs pagination perPage).bind fun selection =>
      (select tie db channel perPage selection).map fun rows => postList pagination (rows.map (listed db))

inductive Direction where
  | before
  | after

/-- Ask for the posts behind the last one of every page, until a page is empty. -/
def follow {ι : Type} (fetch : Option ι → Option (List ι)) : ℕ → Option ι → Option (List ι)
  | 0, _ => none
  | fuel + 1, cursor => (fetch cursor).bind fun ids => match ids.getLast? with
    | none => some []
    | some id => (follow fetch fuel (some id)).map fun pages => ids ++ pages

def fetch (db : PostDb) (channelId : Uuid) (limit : ℕ) (direction : Direction) (cursor : Option Uuid) :
    Option (List Uuid) :=
  let query : PostsQuery := match direction with
    | .before => ⟨0, limit, none, cursor, none⟩
    | .after => ⟨0, limit, none, none, cursor⟩
  (getPosts tie fromMillis utcNow db channelId query).toOption.map fun answer => answer.1.map fun p => p.id

def fetchV4 (db : PostDb) (userId channelId : Uuid) (limit : ℕ) (direction : Direction) (cursor : Option String) :
    Option (List String) :=
  let pagination : Pagination := match direction with
    | .before => ⟨none, some limit, cursor, none, none⟩
    | .after => ⟨none, some limit, none, cursor, none⟩
  (getPostsV4 tie fromMillis utcNow codecs db userId (encodeMmId channelId) pagination).toOption.map fun list => list.order

/-- The pages from `start` on have every live post of the channel once, together with `start`. -/
def Enumerates {ι : Type} (fetch : Option ι → Option (List ι)) (name : Uuid → ι) (db : PostDb) (channelId : Uuid)
    (start : Option Uuid) : Prop :=
  ∃ fuel ids, follow fetch fuel (start.map name) = some ids ∧
    (start.toList.map name ++ ids).Perm ((liveRows db channelId).map fun row => name row.1)

def Direction.time : Direction → Uuid × Post → Int
  | .before, row => -row.2.createdAt
  | .after, row => row.2.createdAt

/-- The live posts in the order of a direction. -/
def ordered (direction : Direction) (db : PostDb) (channelId : Uuid) : List (Uuid × Post) :=
  Page.orderBy (fun row => threadKey tie row.1 (direction.time row)) (liveRows db channelId)

def Behind (direction : Direction) (c row : Uuid × Post) : Prop := direction.time c < direction.time row

instance (direction : Direction) : DecidableRel (Behind direction) := fun c row =>
  inferInstanceAs (Decidable (direction.time c < direction.time row))

instance (direction : Direction) : IsStrictOrder (Uuid × Post) (Behind direction) := Page.isStrictOrder_time

variable {tie} {db : PostDb} {channelId : Uuid} {direction : Direction}

theorem mem_liveRows {row : Uuid × Post} : row ∈ liveRows db channelId ↔
    db.posts.lookup row.1 = some row.2 ∧ row.2.channelId = channelId ∧ row.2.deletedAt = none := by
  unfold liveRows
  rw [Assoc.mem_views]
  constructor
  · rintro ⟨id, post, hpost, hrow⟩
    obtain ⟨hlive, hrow⟩ := Option.ite_none_right_eq_some.1 hrow
    rw [← Option.some.inj hrow]
    exact ⟨hpost, hlive⟩
  · rintro ⟨hpost, hlive⟩
    exact ⟨row.1, row.2, hpost, by rw [if_pos hlive]⟩

theorem nodup_ids : ((liveRows db channelId).map Prod.fst).Nodup := by
  refine Assoc.nodup_map_views fun id post row hrow => ?_
  obtain ⟨-, hrow⟩ := Option.ite_none_right_eq_some.1 hrow
  rw [← Option.some.inj hrow]

theorem ordered_perm : (ordered tie direction db channelId).Perm (liveRows db channelId) := Page.orderBy_perm

theorem nodup_ordered : (ordered tie direction db channelId).Nodup :=
  ordered_perm.nodup_iff.2 (nodup_ids.of_map _)

theorem ordered_pairwise :
    (ordered tie direction db channelId).Pairwise fun a b => direction.time a ≤ direction.time b := by
  refine Page.pairwise_le_orderBy.imp fun {a b} hab => ?_
  exact (Prod.Lex.toLex_le_toLex'.1 hab).1

/-! ### One page -/

variable {fromMillis : Int → Option Int} {utcNow : Int} {codecs : Codecs} {userId : Uuid} {limit : ℕ}

theorem select_start {perPage : ℕ} : select tie db channelId perPage (.page 0) =
    .ok ((ordered tie .before db channelId).take perPage) := by
  rw [select, if_neg (lt_irrefl _)]
  rfl

def Direction.selection (direction : Direction) (id : Uuid) : Selection :=
  match direction with
  | .before => .before id
  | .after => .after id

theorem select_behind {perPage : ℕ} {c : Uuid × Post} (hc : c ∈ liveRows db channelId) :
    select tie db channelId perPage (direction.selection c.1) =
      .ok (((ordered tie direction db channelId).filter fun row => Behind direction c row).take perPage) := by
  have hpost := (mem_liveRows.1 hc).1
  unfold ordered
  rw [← Page.orderBy_filter (nodup_threadKey nodup_ids)]
  cases direction with
  | before =>
    have hfilter : (liveRows db channelId).filter (fun row => row.2.createdAt < c.2.createdAt) =
        (liveRows db channelId).filter fun row => Behind .before c row := by
      refine List.filter_congr fun row _ => ?_
      simp [Behind, Direction.time]
    rw [Direction.selection, select, hpost, ← hfilter]
    rfl
  | after =>
    rw [Direction.selection, select, hpost]
    rfl

/-- What both endpoints make of the limit. -/
def pageSize (limit : ℕ) : ℕ := min limit 200

theorem pageSize_pos (h : 0 < limit) : 0 < pageSize limit := by
  unfold pageSize
  omega

theorem perPage_eq (h : 0 < limit) :
    (min (if 0 < (limit : Int) then (limit : Int) else 60) 200).toNat = pageSize limit := by
  unfold pageSize
  rw [if_pos (by omega)]
  omega

/-- A page of an endpoint, under the names it has for the posts. -/
def Lists {ι : Type} (fetch : Option ι → Option (List ι)) (name : Uuid → ι) (cursor : Option ι) (n : ℕ)
    (rows : List (Uuid × Post)) : Prop :=
  fetch cursor = some ((rows.take n).map fun row => name row.1)

structure Pages {ι : Type} (fetch : Option ι → Option (List ι)) (name : Uuid → ι) (tie : Uuid ↪ ℕ)
    (direction : Direction) (db : PostDb) (channelId : Uuid) (n : ℕ) : Prop where
  start : Lists fetch name none n (ordered tie .before db channelId)
  behind : ∀ c ∈ liveRows db channelId, Lists fetch name (some (name c.1)) n
    ((ordered tie direction db channelId).filter fun row => Behind direction c row)

theorem map_id_listed (rows : List (Uuid × Post)) :
    (rows.map (listed db)).map (fun p => p.id) = rows.map Prod.fst := by
  rw [List.map_map]
  rfl

theorem pages_fetch (h : 0 < limit) : Pages (fetch tie fromMillis utcNow db channelId limit direction) id tie
    direction db channelId (pageSize limit) where
  start := by
    cases direction <;>
    · unfold Lists fetch getPosts
      dsimp only
      rw [perPage_eq h, Int.zero_mul, Int.zero_bmod, select_start]
      exact congrArg some (map_id_listed _)
  behind c hc := by
    have hselect := @select_behind tie db channelId direction (pageSize limit) c hc
    cases direction <;>
    · unfold Direction.selection at hselect
      unfold Lists fetch getPosts
      dsimp only [id]
      rw [perPage_eq h, hselect]
      exact congrArg some (map_id_listed _)

theorem getPostsV4_eq (hcodecs : ∀ id, codecs.parseUuid (encodeMmId id) = none) (hmember : (channelId, userId) ∈ db.members)
    {pagination : Pagination} {selection : Selection} {rows : List (Uuid × Post)}
    (hselection : selectionV4 fromMillis utcNow codecs pagination (min (pagination.perPage.getD 60) 200) = .ok selection)
    (hrows : select tie db channelId (min (pagination.perPage.getD 60) 200) selection = .ok rows) :
    getPostsV4 tie fromMillis utcNow codecs db userId (encodeMmId channelId) pagination =
      .ok (postList pagination (rows.map (listed db))) := by
  have hensure : ensure ((channelId, userId) ∈ db.members) (.forbidden "Not a member of this channel") = .ok () :=
    if_pos hmember
  simp only [getPostsV4, parse_encodeMmId hcodecs, okOr, Option.elim_some, Except.bind, hensure, hselection, hrows,
    Except.map]

theorem order_postList (pagination : Pagination) (rows : List (Uuid × Post)) :
    (postList pagination (rows.map (listed db))).order = rows.map fun row => encodeMmId row.1 := by
  unfold postList
  rw [List.map_map]
  rfl

theorem lookup_postList {pagination : Pagination} {rows : List (Uuid × Post)} (hnodup : (rows.map Prod.fst).Nodup)
    {row : Uuid × Post} (hrow : row ∈ rows) :
    (postList pagination (rows.map (listed db))).posts.lookup (encodeMmId row.1) = some (listed db row).toMm := by
  have hposts : (postList pagination (rows.map (listed db))).posts =
      (rows.map fun row => (encodeMmId row.1, (listed db row).toMm)).foldl (fun m p => m.insert p.1 p.2) ∅ := by
    rw [List.foldl_map]
    exact List.foldl_map
  rw [hposts]
  refine Assoc.lookup_foldl_insert (fun p hp hid => ?_) (.inl ⟨_, List.mem_map.2 ⟨row, hrow, rfl⟩, rfl⟩)
  obtain ⟨other, hother, rfl⟩ := List.mem_map.1 hp
  rw [List.inj_on_of_nodup_map hnodup hother hrow (encodeMmId_injective hid)]

theorem pages_fetchV4 (hcodecs : ∀ id, codecs.parseUuid (encodeMmId id) = none) (hmember : (channelId, userId) ∈ db.members) :
    Pages (fetchV4 tie fromMillis utcNow codecs db userId channelId limit direction) encodeMmId tie direction db channelId
      (pageSize limit) where
  start := by
    have hselect := @select_start tie db channelId (pageSize limit)
    cases direction <;>
    · unfold Lists fetchV4
      dsimp only
      rw [getPostsV4_eq hcodecs hmember (by simp [selectionV4]) hselect]
      exact congrArg some (order_postList _ _)
  behind c hc := by
    have hselect := @select_behind tie db channelId direction (pageSize limit) c hc
    cases direction <;>
    · unfold Lists fetchV4
      dsimp only
      rw [getPostsV4_eq hcodecs hmember (by simp [selectionV4, parse_encodeMmId hcodecs, okOr, Except.map, Direction.selection]) hselect]
      exact congrArg some (order_postList _ _)

/-! ### All pages -/

section Follow

variable {ι : Type} {fetch : Option ι → Option (List ι)} {name : Uuid → ι} {n : ℕ} {cursor : Option ι}
  {rows : List (Uuid × Post)}

theorem filter_behind {c d : Uuid × Post} (hcd : Behind direction c d) :
    (rows.filter fun row => Behind direction c row).filter (fun row => Behind direction d row) =
      rows.filter fun row => Behind direction d row := by
  rw [List.filter_filter]
  refine List.filter_congr fun row _ => ?_
  rw [Bool.eq_iff_iff, Bool.and_eq_true, decide_eq_true_eq, decide_eq_true_eq]
  exact ⟨fun hrow => hrow.1, fun hrow => ⟨hrow, trans_of (Behind direction) hcd hrow⟩⟩

theorem follow_eq (h : Pages fetch name tie direction db channelId n) (hpage : Lists fetch name cursor n rows)
    (hmem : rows ⊆ liveRows db channelId)
    (hrows : ∀ c ∈ rows, rows.filter (fun row => Behind direction c row) =
      (ordered tie direction db channelId).filter fun row => Behind direction c row) (fuel : ℕ) :
    follow fetch fuel cursor =
      (Page.walkOut (Behind direction) n fuel rows).map fun out => out.map fun row => name row.1 := by
  induction fuel generalizing cursor rows with
  | zero => rfl
  | succ fuel ih =>
    rw [follow, hpage, Option.bind_some, List.getLast?_map, Page.walkOut]
    cases hlast : (rows.take n).getLast? with
    | none => rfl
    | some c =>
      have hc : c ∈ rows := List.mem_of_mem_take (List.mem_of_getLast? hlast)
      have hnext : Lists fetch name (some (name c.1)) n (rows.filter fun row => Behind direction c row) := by
        rw [hrows c hc]
        exact h.behind c (hmem hc)
      dsimp only [Option.map_some]
      rw [ih hnext (fun row hrow => hmem (List.mem_filter.1 hrow).1) fun d hd => ?_]
      · rw [Option.map_map, Option.map_map]
        refine Option.map_congr fun pages _ => ?_
        rw [Function.comp_apply, Function.comp_apply, List.map_append]
      · rw [← hrows d (List.mem_filter.1 hd).1]
        exact filter_behind (by simpa using (List.mem_filter.1 hd).2)

theorem mem_ordered {row : Uuid × Post} :
    row ∈ ordered tie direction db channelId ↔ row ∈ liveRows db channelId :=
  ordered_perm.mem_iff

theorem nodup_names (hname : Function.Injective name) :
    ((ordered tie direction db channelId).map fun row => name row.1).Nodup := by
  have hids := (@nodup_ids db channelId).map hname
  rw [List.map_map] at hids
  exact (ordered_perm.map _).nodup_iff.2 hids

theorem perm_walkOut_iff (hn : 0 < n) (hrows : rows.Pairwise fun a b => direction.time a ≤ direction.time b)
    (hnodup : rows.Nodup) : (∃ fuel out, Page.walkOut (Behind direction) n fuel rows = some out ∧ out.Perm rows) ↔
      Page.Parted direction.time n rows := by
  have hback : rows.Pairwise fun a b => ¬ Behind direction b a := hrows.imp fun {_ _} hab => not_lt.2 hab
  exact (Page.perm_walkOut_iff hn hback hnodup).trans (Page.cut_iff_parted hrows)

theorem enumerates_before_iff (h : Pages fetch name tie .before db channelId n) (hname : Function.Injective name)
    (hn : 0 < n) : Enumerates fetch name db channelId none ↔
      Page.Parted Direction.before.time n (ordered tie .before db channelId) := by
  have hfollow := follow_eq h h.start (fun row hrow => mem_ordered.1 hrow) fun _ _ => rfl
  rw [← perm_walkOut_iff hn ordered_pairwise nodup_ordered]
  constructor
  · rintro ⟨fuel, ids, hids, hperm⟩
    rw [Option.map_none, hfollow, Option.map_eq_some_iff] at hids
    obtain ⟨out, hwalk, rfl⟩ := hids
    refine ⟨fuel, out, hwalk, Page.perm_of_map_perm (nodup_names hname) ?_ ?_⟩
    · exact Page.walkOut_subset hwalk
    · exact hperm.trans (ordered_perm.symm.map _)
  · rintro ⟨fuel, out, hwalk, hperm⟩
    refine ⟨fuel, out.map fun row => name row.1, ?_, ?_⟩
    · rw [Option.map_none, hfollow, hwalk]
      rfl
    · exact (hperm.trans ordered_perm).map fun row => name row.1

def newer (tie : Uuid ↪ ℕ) (db : PostDb) (channelId : Uuid) (first : Uuid × Post) : List (Uuid × Post) :=
  (ordered tie .after db channelId).filter fun row => Behind .after first row

theorem enumerates_after_iff (h : Pages fetch name tie .after db channelId n) (hname : Function.Injective name)
    (hn : 0 < n) {first : Uuid × Post} (hfirst : first ∈ liveRows db channelId) :
    Enumerates fetch name db channelId (some first.1) ↔
      (∀ other ∈ liveRows db channelId, other ≠ first → first.2.createdAt < other.2.createdAt) ∧
        Page.Parted Direction.after.time n (newer tie db channelId first) := by
  have hsub : newer tie db channelId first ⊆ liveRows db channelId :=
    fun row hrow => mem_ordered.1 (List.mem_filter.1 hrow).1
  have hfollow := follow_eq h (h.behind first hfirst) hsub fun c hc =>
    filter_behind (by simpa using (List.mem_filter.1 hc).2)
  have hpairwise : (newer tie db channelId first).Pairwise fun a b => Direction.after.time a ≤ Direction.after.time b :=
    ordered_pairwise.filter _
  have hnodup : (newer tie db channelId first).Nodup := nodup_ordered.filter _
  have hmem (row : Uuid × Post) : row ∈ newer tie db channelId first ↔
      row ∈ liveRows db channelId ∧ first.2.createdAt < row.2.createdAt := by
    rw [newer, List.mem_filter, mem_ordered, decide_eq_true_eq]
    rfl
  rw [← perm_walkOut_iff hn hpairwise hnodup]
  constructor
  · rintro ⟨fuel, ids, hids, hperm⟩
    rw [Option.map_some, hfollow, Option.map_eq_some_iff] at hids
    obtain ⟨out, hwalk, rfl⟩ := hids
    have hout : out ⊆ newer tie db channelId first := Page.walkOut_subset hwalk
    have hall : (first :: out).Perm (ordered tie .after db channelId) := by
      refine Page.perm_of_map_perm (nodup_names hname) ?_ (hperm.trans (ordered_perm.symm.map _))
      refine List.cons_subset.2 ⟨mem_ordered.2 hfirst, fun row hrow => mem_ordered.2 (hsub (hout hrow))⟩
    have hlater : ∀ other ∈ liveRows db channelId, other ≠ first → other ∈ out := fun other hother hne =>
      (List.mem_cons.1 (hall.mem_iff.2 (mem_ordered.2 hother))).resolve_left hne
    refine ⟨fun other hother hne => ((hmem other).1 (hout (hlater other hother hne))).2, fuel, out, hwalk, ?_⟩
    have houtnodup : out.Nodup := (List.nodup_cons.1 (hall.nodup_iff.2 nodup_ordered)).2
    refine (List.perm_ext_iff_of_nodup houtnodup hnodup).2 fun row => ⟨fun hrow => hout hrow, fun hrow => ?_⟩
    obtain ⟨hlive, hlt⟩ := (hmem row).1 hrow
    refine hlater row hlive ?_
    rintro rfl
    exact lt_irrefl _ hlt
  · rintro ⟨hother, fuel, out, hwalk, hperm⟩
    refine ⟨fuel, out.map fun row => name row.1, ?_, ?_⟩
    · rw [Option.map_some, hfollow, ← newer, hwalk]
      rfl
    · have hall : (first :: newer tie db channelId first).Perm (liveRows db channelId) := by
        refine (List.perm_ext_iff_of_nodup ?_ (nodup_ids.of_map _)).2 fun row => ?_
        · exact List.nodup_cons.2 ⟨fun hrow => lt_irrefl _ ((hmem first).1 hrow).2, hnodup⟩
        · rw [List.mem_cons, hmem]
          refine ⟨?_, fun hrow => ?_⟩
          · rintro (rfl | hrow)
            · exact hfirst
            · exact hrow.1
          · by_cases hne : row = first
            · exact .inl hne
            · exact .inr ⟨hrow, hother row hrow hne⟩
      exact ((hperm.cons first).trans hall).map fun row => name row.1

end Follow

/-- From the newest post back, and from the oldest one on, the pages of both endpoints have every live post once
exactly if no page ends between two posts of one time. -/
theorem enumerates_iff_parted (tie : Uuid ↪ ℕ) (fromMillis : Int → Option Int) (utcNow : Int) (codecs : Codecs)
    (hcodecs : ∀ id, codecs.parseUuid (encodeMmId id) = none) (db : PostDb) (userId channelId : Uuid)
    (hmember : (channelId, userId) ∈ db.members) (limit : ℕ) (hlimit : 1 ≤ limit) :
    let native := fetch tie fromMillis utcNow db channelId limit
    let v4 := fetchV4 tie fromMillis utcNow codecs db userId channelId limit
    let fromNewest := Page.Parted Direction.before.time (pageSize limit) (ordered tie .before db channelId)
    let fromOldest (first : Uuid × Post) :=
      Page.Parted Direction.after.time (pageSize limit) (newer tie db channelId first)
    (Enumerates (native .before) id db channelId none ↔ fromNewest) ∧
      (Enumerates (v4 .before) encodeMmId db channelId none ↔ fromNewest) ∧
      ∀ first ∈ liveRows db channelId, (∀ other ∈ liveRows db channelId, first.2.createdAt ≤ other.2.createdAt) →
        (Enumerates (native .after) id db channelId (some first.1) ↔
          (∀ other ∈ liveRows db channelId, other ≠ first → other.2.createdAt ≠ first.2.createdAt) ∧
            fromOldest first) ∧
        (Enumerates (v4 .after) encodeMmId db channelId (some first.1) ↔
          (∀ other ∈ liveRows db channelId, other ≠ first → other.2.createdAt ≠ first.2.createdAt) ∧
            fromOldest first) := by
  have hn := pageSize_pos hlimit
  refine ⟨enumerates_before_iff (pages_fetch hlimit) Function.injective_id hn,
    enumerates_before_iff (pages_fetchV4 hcodecs hmember) encodeMmId_injective hn, fun first hfirst holdest => ?_⟩
  have hlater : (∀ other ∈ liveRows db channelId, other ≠ first → first.2.createdAt < other.2.createdAt) ↔
      ∀ other ∈ liveRows db channelId, other ≠ first → other.2.createdAt ≠ first.2.createdAt := by
    refine forall₃_congr fun other hother _ => ?_
    have hle := holdest other hother
    omega
  rw [← hlater]
  exact ⟨enumerates_after_iff (pages_fetch hlimit) Function.injective_id hn hfirst,
    enumerates_after_iff (pages_fetchV4 hcodecs hmember) encodeMmId_injective hn hfirst⟩

def twoPosts (time time' : Int) : PostDb :=
  let row (createdAt : Int) : Post := ⟨5, 2, none, "a", .obj [], [], false, createdAt, none, none, 0, none, 0⟩
  { ThreadRun.onePost with posts := AList.insert 9 (row time') (AList.insert 8 (row time) ∅) }

def ofMillis (t : Int) : Option Int := some (t * 1000)

theorem parseUuid_plainCodecs (id : Uuid) : ThreadRun.plainCodecs.parseUuid (encodeMmId id) = none := by
  simp only [ThreadRun.plainCodecs, ofHyphenated_encodeMmId]

theorem enumerates_apart :
    Enumerates (fetch ThreadPages.byId ofMillis 0 (twoPosts 1 2) 5 1 .before) id (twoPosts 1 2) 5 none := by
  have h := enumerates_iff_parted ThreadPages.byId ofMillis 0 ThreadRun.plainCodecs parseUuid_plainCodecs (twoPosts 1 2)
    2 5 (by decide) 1 (by decide)
  exact h.1.2 (by decide)

/-- Of two posts of one time only one is listed. -/
theorem one_of_two_skipped :
    ¬ Enumerates (fetch ThreadPages.byId ofMillis 0 (twoPosts 1 1) 5 1 .before) id (twoPosts 1 1) 5 none := by
  rw [enumerates_before_iff (pages_fetch (by decide)) Function.injective_id (by decide)]
  decide

end ChannelPages
end Rustchat
