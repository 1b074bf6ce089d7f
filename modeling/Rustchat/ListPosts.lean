import Rustchat.ScrollBack

/-!
# The parameters of `list_posts` (`api/posts.rs`)

The placeholders of the query are numbered by hand, the values bound in the order in which they are given:
`ListPostsQuery.bound_iff_numbered` says for which parameters they meet. What the endpoint lists are the root posts of a channel,
at most 100, and with `after` the oldest ones, and only if the read state of the member can be read.
`ListDb.listsRight_iff` says when these are the newest posts that the parameters ask for.
-/

namespace Rustchat

namespace ListPostsQuery

def placeholder : ListCondition → ℕ
  | .isPinned => 2
  | .message => 3
  | .before => 4
  | .after => 4

/-- What a condition is given to compare with. -/
def given (query : ListPostsQuery) : ListCondition → Option SqlValue
  | .isPinned => query.isPinned.map .bool
  | .message => query.q.map fun q => .text ("%" ++ q ++ "%")
  | .before => query.before.map .uuid
  | .after => query.after.map .uuid

/-- There are as many values as placeholders, and every placeholder has its own. -/
structure Bound (query : ListPostsQuery) (channelId : Uuid) : Prop where
  count : (query.values channelId).length = query.argIndex
  channel : (query.values channelId)[0]? = some (.uuid channelId)
  own : ∀ c ∈ query.conditions, (query.values channelId)[placeholder c - 1]? = query.given c
  limit : (query.values channelId)[query.argIndex - 1]? = some (.int (min (query.limit.getD 50) 100))

/-- Every parameter comes with those that are numbered before it. -/
structure Numbered (query : ListPostsQuery) : Prop where
  message : query.isPinned = none → query.q = none
  cursor : query.q = none → query.before = none ∧ query.after = none

variable {query : ListPostsQuery} {channelId : Uuid}

theorem Numbered.cases (h : query.Numbered) : (∃ limit, query = ⟨none, none, limit, none, none⟩) ∨
    (∃ limit pinned, query = ⟨none, none, limit, some pinned, none⟩) ∨
      ∃ before after limit pinned q, query = ⟨before, after, limit, some pinned, some q⟩ := by
  obtain ⟨before, after, limit, isPinned, q⟩ := query
  obtain ⟨hmessage, hcursor⟩ := h
  rcases isPinned with _ | pinned
  · obtain rfl : q = none := hmessage rfl
    obtain ⟨rfl, rfl⟩ : before = none ∧ after = none := hcursor rfl
    exact .inl ⟨limit, rfl⟩
  · rcases q with _ | q
    · obtain ⟨rfl, rfl⟩ : before = none ∧ after = none := hcursor rfl
      exact .inr (.inl ⟨limit, pinned, rfl⟩)
    · exact .inr (.inr ⟨before, after, limit, pinned, q, rfl⟩)

theorem numbered_of_count (hcount : (query.values channelId).length = query.argIndex) : query.Numbered := by
  obtain ⟨before, after, limit, isPinned, q⟩ := query
  constructor <;> rcases isPinned with _ | pinned <;> rcases q with _ | q <;> rcases before with _ | id <;>
    rcases after with _ | id' <;> simp_all [values, argIndex]

theorem Numbered.bound (h : query.Numbered) : query.Bound channelId := by
  rcases h.cases with ⟨limit, rfl⟩ | ⟨limit, pinned, rfl⟩ | ⟨before, after, limit, pinned, q, rfl⟩
  · exact ⟨rfl, rfl, fun c hc => absurd hc List.not_mem_nil, rfl⟩
  · refine ⟨rfl, rfl, fun c hc => ?_, rfl⟩
    obtain rfl := List.mem_singleton.1 hc
    rfl
  · rcases before with _ | id <;> rcases after with _ | id' <;>
      exact ⟨rfl, rfl, by simp [values, conditions, placeholder, given], rfl⟩

theorem count_iff : (query.values channelId).length = query.argIndex ↔ query.Numbered :=
  ⟨numbered_of_count, fun h => h.bound.count⟩

theorem bound_iff_numbered : query.Bound channelId ↔ query.Numbered :=
  ⟨fun h => numbered_of_count h.count, Numbered.bound⟩

end ListPostsQuery

namespace ListDb

/-! ### The posts that are asked for -/

variable (tie : Uuid ↪ ℕ) (ilike : String → String → Bool) (db : ListDb) (userId channelId : Uuid) (query : ListPostsQuery)

def meets (post : Post) : Bool :=
  query.isPinned.all (fun pinned => pinned = post.isPinned) && query.q.all (fun q => ilike post.message ("%" ++ q ++ "%")) &&
    query.before.all (fun id => (db.posts.lookup id).any fun p => post.createdAt < p.createdAt) &&
      query.after.all fun id => (db.posts.lookup id).any fun p => p.createdAt < post.createdAt

def liveRows : List (Uuid × Post) :=
  Assoc.views (fun id post =>
    if post.channelId = channelId ∧ post.deletedAt = none then some (id, post) else none) db.posts

def asked : ℤ := query.limit.getD 50

def found : List (Uuid × Post) := (liveRows db channelId).filter fun row => meets ilike db query row.2

def listed : List (Uuid × Post) := (db.rows channelId).filter fun row => meets ilike db query row.2

/-- Of the replies only those in a direct or group channel are listed. -/
def isListed (row : Uuid × Post) : Bool :=
  decide (row.2.rootPostId = none ∨ db.channelType channelId = .Direct ∨ db.channelType channelId = .Group)

def hidden : List (Uuid × Post) := (found ilike db channelId query).filter fun row => !isListed db channelId row

/-- The query is answered with the newest posts that meet its conditions, as many as are asked for. -/
structure ListsRight : Prop where
  bound : query.Bound channelId
  newest : ∃ rows, db.listPosts tie ilike userId channelId query = .ok rows ∧
    Page.Firsts (fun row => -row.2.createdAt) (asked query).toNat (found ilike db channelId query) rows

/-- The read states and parameters for which it is. -/
structure Fits : Prop where
  positioned : db.Positioned userId channelId
  numbered : query.Numbered
  nonneg : 0 ≤ asked query
  hidden : ∀ reply ∈ hidden ilike db channelId query,
    asked query ≤ (listed ilike db channelId query).countP fun row => reply.2.createdAt ≤ row.2.createdAt
  page : asked query ≤ 100 ∨ (found ilike db channelId query).length ≤ 100
  after : 0 < asked query → query.after.isSome → (listed ilike db channelId query).length ≤ asked query ∨
    ∀ a ∈ listed ilike db channelId query, ∀ b ∈ listed ilike db channelId query, a.2.createdAt = b.2.createdAt
  both : 0 < asked query → query.before.isSome → ∀ row ∈ db.rows channelId,
    meets ilike db { query with after := none } row.2 → meets ilike db query row.2

variable {tie ilike db userId channelId query}

theorem rows_eq : db.rows channelId = (liveRows db channelId).filter (isListed db channelId) := by
  unfold rows liveRows isListed Assoc.views
  rw [List.filter_filterMap]
  refine List.filterMap_congr fun e _ => ?_
  dsimp only
  by_cases hlive : e.2.channelId = channelId ∧ e.2.deletedAt = none
  · by_cases hlisted : e.2.rootPostId = none ∨ db.channelType channelId = .Direct ∨ db.channelType channelId = .Group
    · rw [if_pos ⟨hlive.1, hlive.2, hlisted⟩, if_pos hlive, Option.filter_some, if_pos (decide_eq_true hlisted)]
    · rw [if_neg fun h => hlisted h.2.2, if_pos hlive, Option.filter_some, if_neg (by simpa using hlisted)]
  · rw [if_neg fun h => hlive ⟨h.1, h.2.1⟩, if_neg hlive]
    rfl

theorem found_perm : (found ilike db channelId query).Perm
    (listed ilike db channelId query ++ hidden ilike db channelId query) := by
  have hlisted : listed ilike db channelId query = (found ilike db channelId query).filter (isListed db channelId) := by
    rw [listed, rows_eq, List.filter_comm, found]
  rw [hlisted, hidden]
  exact (List.filter_append_perm _ _).symm

theorem mem_listed {row : Uuid × Post} :
    row ∈ listed ilike db channelId query ↔ row ∈ db.rows channelId ∧ meets ilike db query row.2 = true :=
  List.mem_filter

/-! ### The answer -/

/-- The conditions of the text: `after` is not read when `before` is given. -/
def read (query : ListPostsQuery) : ListPostsQuery :=
  if query.before.isSome then { query with after := none } else query

def order (query : ListPostsQuery) : ℤ := if query.after.isSome then 1 else -1

theorem all_conditions (h : query.Numbered) (post : Post) :
    query.conditions.all (holds ilike db (query.values channelId) post) = meets ilike db (read query) post := by
  rcases h.cases with ⟨limit, rfl⟩ | ⟨limit, pinned, rfl⟩ | ⟨before, after, limit, pinned, q, rfl⟩
  · rfl
  · simp [ListPostsQuery.conditions, ListPostsQuery.values, holds, meets, read]
  · rcases before with _ | id <;> rcases after with _ | id' <;>
      simp [ListPostsQuery.conditions, ListPostsQuery.values, holds, meets, read, Bool.and_assoc]

theorem listPosts_eq (hmember : (channelId, userId) ∈ db.members) (hread : db.Positioned userId channelId)
    (h : query.Bound channelId) :
    db.listPosts tie ilike userId channelId query = if min (asked query) 100 < 0 then .error .database
      else .ok (Page.page (fun row => threadKey tie row.1 (order query * row.2.createdAt))
        (min (asked query) 100).toNat ((db.rows channelId).filter fun row => meets ilike db (read query) row.2)) := by
  obtain ⟨seq, hseq⟩ := lastRead_of_positioned hread
  unfold listPosts
  rw [ensure, if_pos hmember, hseq]
  simp only [Except.bind, h.count, ne_eq, not_true_eq_false, if_false, h.limit,
    all_conditions (ListPostsQuery.bound_iff_numbered.1 h)]
  rfl

theorem listPosts_error (hmember : (channelId, userId) ∈ db.members) (h : ¬ query.Numbered) :
    db.listPosts tie ilike userId channelId query = .error .database := by
  unfold listPosts lastRead
  rw [ensure, if_pos hmember]
  have hcount : (query.values channelId).length ≠ query.argIndex := fun hcount => h (ListPostsQuery.count_iff.1 hcount)
  split
  · exact if_pos hcount
  · rfl
  · exact if_pos hcount

theorem meets_read {post : Post} (h : meets ilike db query post = true) : meets ilike db (read query) post = true := by
  unfold read
  split
  · simp only [meets, Bool.and_eq_true] at h ⊢
    exact ⟨h.1, rfl⟩
  · exact h

theorem forall_meets_iff : (∀ row ∈ db.rows channelId, meets ilike db (read query) row.2 → meets ilike db query row.2) ↔
    (query.before.isSome → ∀ row ∈ db.rows channelId,
      meets ilike db { query with after := none } row.2 → meets ilike db query row.2) := by
  unfold read
  split
  · rename_i hbefore
    exact (imp_iff_right hbefore).symm
  · rename_i hbefore
    exact iff_of_true (fun row _ h => h) fun h => absurd h hbefore

theorem filter_read (h : ∀ row ∈ db.rows channelId, meets ilike db (read query) row.2 → meets ilike db query row.2) :
    (db.rows channelId).filter (fun row => meets ilike db (read query) row.2) = listed ilike db channelId query :=
  List.filter_congr fun row hrow => Bool.eq_iff_iff.2 ⟨h row hrow, meets_read⟩

theorem newest_iff (hasked : 0 ≤ asked query) {out : List (Uuid × Post)}
    (hout : Page.Firsts (fun row => order query * row.2.createdAt) (min (asked query) 100).toNat
      (listed ilike db channelId query) out) :
    Page.Firsts (fun row => -row.2.createdAt) (asked query).toNat (found ilike db channelId query) out ↔
      (0 < asked query → query.after.isSome → (listed ilike db channelId query).length ≤ asked query ∨
        ∀ a ∈ listed ilike db channelId query, ∀ b ∈ listed ilike db channelId query, a.2.createdAt = b.2.createdAt) ∧
      (∀ reply ∈ hidden ilike db channelId query,
        asked query ≤ (listed ilike db channelId query).countP fun row => reply.2.createdAt ≤ row.2.createdAt) ∧
      (asked query ≤ 100 ∨ (found ilike db channelId query).length ≤ 100) := by
  obtain ⟨rest, hperm, hle⟩ := hout.rest
  have hlength : out.length = min (min (asked query).toNat 100) (listed ilike db channelId query).length := by
    have h := hout.length
    omega
  rw [Page.Firsts.congr found_perm, Page.firsts_append_iff hperm hlength, found_perm.length_eq]
  have hhidden : (∀ reply ∈ hidden ilike db channelId query, (asked query).toNat ≤
      (listed ilike db channelId query).countP fun row => -row.2.createdAt ≤ -reply.2.createdAt) ↔
      ∀ reply ∈ hidden ilike db channelId query,
        asked query ≤ (listed ilike db channelId query).countP fun row => reply.2.createdAt ≤ row.2.createdAt := by
    refine forall₂_congr fun reply _ => ?_
    simp only [Int.neg_le_neg_iff]
    omega
  rw [hhidden]
  have hcapped : ((asked query).toNat ≤ 100 ∨
      (listed ilike db channelId query ++ hidden ilike db channelId query).length ≤ 100) ↔
      (asked query ≤ 100 ∨ (listed ilike db channelId query ++ hidden ilike db channelId query).length ≤ 100) := by
    omega
  rw [hcapped]
  refine and_congr_left fun ⟨_, hcap⟩ => ?_
  rw [List.length_append] at hcap
  by_cases hafter : query.after.isSome
  · by_cases hpos : 0 < asked query
    · have hge : ∀ x ∈ out, ∀ y ∈ rest, -y.2.createdAt ≤ -x.2.createdAt := fun x hx y hy => by
        have h := hle x hx y hy
        rw [order, if_pos hafter] at h
        omega
      rw [Page.forall_le_iff_of_ge hperm hlength (by omega) (by omega) hge (by omega)]
      simp only [hpos, hafter, forall_true_left, neg_inj]
      refine or_congr_left ?_
      omega
    · have hnil : out = [] := List.eq_nil_of_length_eq_zero (by omega)
      simp [hnil, hpos]
  · refine iff_of_true (fun x hx y hy => ?_) fun _ h => absurd h hafter
    have h := hle x hx y hy
    rw [order, if_neg hafter] at h
    omega

/-- If a page of the oldest posts is one of the newest, `after` holds of all posts that it is not asked of. -/
theorem meets_of_firsts (hpos : 0 < asked query) (hbefore : query.before.isSome) {out : List (Uuid × Post)}
    (hout : Page.Firsts (fun row => order query * row.2.createdAt) (min (asked query) 100).toNat
      ((db.rows channelId).filter fun row => meets ilike db (read query) row.2) out)
    (hsub : ∀ row ∈ out, meets ilike db query row.2 = true) {row : Uuid × Post} (hrow : row ∈ db.rows channelId)
    (h : meets ilike db (read query) row.2 = true) : meets ilike db query row.2 = true := by
  obtain ⟨first, hfirst, hleast⟩ := hout.exists_first (by omega) (List.mem_filter.2 ⟨hrow, h⟩)
  have hle := hleast row (List.mem_filter.2 ⟨hrow, h⟩)
  have hmeets := hsub first hfirst
  rw [read, if_pos hbefore] at h
  simp only [meets, Bool.and_eq_true] at h hmeets ⊢
  refine ⟨h.1, ?_⟩
  rcases hafter : query.after with _ | id
  · rfl
  · rw [hafter] at hmeets
    rw [order, hafter] at hle
    rcases hpost : db.posts.lookup id with _ | p
    · simp [hpost] at hmeets
    · simp only [hpost, Option.all_some, Option.any_some, decide_eq_true_eq, Option.isSome_some, if_true] at hmeets hle ⊢
      omega

/-- The answer is right exactly for the read states and parameters that fit. -/
theorem listsRight_iff (tie : Uuid ↪ ℕ) (ilike : String → String → Bool) (db : ListDb) (userId channelId : Uuid)
    (query : ListPostsQuery) (hmember : (channelId, userId) ∈ db.members) :
    ListsRight tie ilike db userId channelId query ↔ Fits ilike db userId channelId query := by
  have hpage := @firsts_threadPage _ tie ((db.rows channelId).filter fun row => meets ilike db (read query) row.2)
    Prod.fst (fun row => order query * row.2.createdAt) (min (asked query) 100).toNat
  constructor
  · rintro ⟨hbound, rows, hrows, hnewest⟩
    have hread : db.Positioned userId channelId := by
      by_contra hread
      exact listPosts_of_not_positioned hread hrows
    rw [listPosts_eq hmember hread hbound] at hrows
    split at hrows
    · cases hrows
    · rename_i hlimit
      have hnonneg : 0 ≤ asked query := by omega
      rw [Except.ok.inj hrows] at hpage
      have hnumbered := ListPostsQuery.bound_iff_numbered.1 hbound
      by_cases hpos : 0 < asked query
      · have hboth : query.before.isSome → ∀ row ∈ db.rows channelId,
            meets ilike db { query with after := none } row.2 → meets ilike db query row.2 := by
          intro hbefore row hrow h
          refine meets_of_firsts hpos hbefore hpage (fun row hrow => (List.mem_filter.1 (hnewest.mem hrow)).2) hrow ?_
          rwa [read, if_pos hbefore]
        rw [filter_read (forall_meets_iff.2 hboth)] at hpage
        obtain ⟨hafter, hhidden, hcap⟩ := (newest_iff hnonneg hpage).1 hnewest
        exact ⟨hread, hnumbered, hnonneg, hhidden, hcap, hafter, fun _ => hboth⟩
      · exact ⟨hread, hnumbered, hnonneg, fun _ _ => by omega, by omega, fun h => absurd h hpos, fun h => absurd h hpos⟩
  · intro h
    have hbound : query.Bound channelId := ListPostsQuery.bound_iff_numbered.2 h.numbered
    have hnonneg := h.nonneg
    refine ⟨hbound, _, (listPosts_eq hmember h.positioned hbound).trans (if_neg (by omega)), ?_⟩
    by_cases hpos : 0 < asked query
    · rw [filter_read (forall_meets_iff.2 (h.both hpos))] at hpage ⊢
      exact (newest_iff hnonneg hpage).2 ⟨h.after, h.hidden, h.page⟩
    · have hnone : (asked query).toNat = 0 ∧ (min (asked query) 100).toNat = 0 := by omega
      rw [hnone.1, hnone.2]
      exact Page.firsts_zero

theorem three_listed : ListsRight ⟨BitVec.toNat, BitVec.toNat_injective⟩ (fun _ _ => true) (ScrollBack.busyChannel 3) 1 5
    ⟨none, none, some 2, some false, some "hello"⟩ := by
  refine (listsRight_iff _ _ _ 1 5 ⟨none, none, some 2, some false, some "hello"⟩
    ((AList.mem_insert _).2 (.inl rfl))).2 ⟨ScrollBack.busyChannel_positioned 3, ⟨nofun, fun _ => ⟨rfl, rfl⟩⟩, by decide, ?_, .inl (by decide), nofun, nofun⟩
  decide +kernel

/-- A search for a text and nothing else is refused by the database. -/
theorem search_refused :
    (ScrollBack.busyChannel 3).listPosts ⟨BitVec.toNat, BitVec.toNat_injective⟩ (fun _ _ => true) 1 5
        ⟨none, none, none, none, some "hello"⟩ = .error .database ∧
      ¬ ListsRight ⟨BitVec.toNat, BitVec.toNat_injective⟩ (fun _ _ => true) (ScrollBack.busyChannel 3) 1 5
        ⟨none, none, none, none, some "hello"⟩ := by
  refine ⟨listPosts_error ((AList.mem_insert _).2 (.inl rfl)) fun h => ?_, fun h => absurd h.bound.count (by decide)⟩
  exact absurd (h.message rfl) nofun

end ListDb
end Rustchat
