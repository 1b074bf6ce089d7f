import Rustchat.ChannelSubs
import Rustchat.MessageRun
import Rustchat.Threads

/-!
# Scrolling back (`list_posts` of `api/posts.rs`, `stores/messages.ts`)

A client reads the history of a channel page by page, with the id of its oldest message as the cursor. The
placeholders of the query are numbered as if every parameter before them was given, so a query that has a
cursor and no other parameter fails, and the query of the read state fails where the row has no position.
`ScrollBack.complete_iff_short` says for which channels the client gets to the end. The first unread post of
the answer and the files, reactions and saved flags of its posts are left out.
-/

namespace Rustchat

/-- The tables that `list_posts` reads. Every channel of a post has a row. -/
structure ListDb where
  posts : Assoc Uuid Post
  members : Assoc (Uuid × Uuid) Unit
  -- `last_read_message_id` of `channel_reads`, by user and channel; null if nothing has been read
  reads : Assoc (Uuid × Uuid) (Option Int)
  channelType : Uuid → ChannelType

structure ListPostsQuery where
  before : Option Uuid
  after : Option Uuid
  limit : Option Int
  isPinned : Option Bool
  q : Option String

/-- What is bound to a placeholder. -/
inductive SqlValue
  | uuid (id : Uuid)
  | bool (b : Bool)
  | text (s : String)
  | int (n : Int)
deriving DecidableEq

/-- The conditions on `$2`, `$3`, `$4` and `$4`. -/
inductive ListCondition
  | isPinned
  | message
  | before
  | after

namespace ListPostsQuery

def conditions (query : ListPostsQuery) : List ListCondition :=
  (if query.isPinned.isSome then [.isPinned] else []) ++ (if query.q.isSome then [.message] else []) ++
    if query.before.isSome then [.before] else if query.after.isSome then [.after] else []

/-- The placeholder of the limit, which is the greatest of the query. -/
def argIndex (query : ListPostsQuery) : ℕ :=
  if query.before.isSome ∨ query.after.isSome then 5
  else if query.q.isSome then 4
  else if query.isPinned.isSome then 3
  else 2

def values (query : ListPostsQuery) (channelId : Uuid) : List SqlValue :=
  .uuid channelId :: ((query.isPinned.map .bool).toList ++ (query.q.map fun q => .text ("%" ++ q ++ "%")).toList ++
    ((query.before.or query.after).map .uuid).toList ++ [.int (min (query.limit.getD 50) 100)])

end ListPostsQuery

namespace ListDb

variable (tie : Uuid ↪ ℕ) (ilike : String → String → Bool)

/-- A comparison with a post that does not exist is null. -/
def holds (db : ListDb) (values : List SqlValue) (post : Post) : ListCondition → Bool
  | .isPinned => values[1]? = some (.bool post.isPinned)
  | .message => match (values[2]? : Option SqlValue) with
    | some (.text pattern) => ilike post.message pattern
    | _ => false
  | .before => match (values[3]? : Option SqlValue) with
    | some (.uuid id) => (db.posts.lookup id).any fun p => post.createdAt < p.createdAt
    | _ => false
  | .after => match (values[3]? : Option SqlValue) with
    | some (.uuid id) => (db.posts.lookup id).any fun p => p.createdAt < post.createdAt
    | _ => false

/-- The rows of a channel: its root posts, and in a direct or group channel the replies too. -/
def rows (db : ListDb) (channelId : Uuid) : List (Uuid × Post) :=
  Assoc.views (fun id post =>
    if post.channelId = channelId ∧ post.deletedAt = none ∧
      (post.rootPostId = none ∨ db.channelType channelId = .Direct ∨ db.channelType channelId = .Group)
    then some (id, post) else none) db.posts

/-- The scalar of the row is an `i64`: a null does not decode. -/
def lastRead (db : ListDb) (userId channelId : Uuid) : Except AppError (Option Int) :=
  match db.reads.lookup (userId, channelId) with
  | some (some seq) => .ok (some seq)
  | some none => .error .database
  | none => .ok none

/-- The statement fails unless every placeholder has its value, and so does a negative limit. -/
def listPosts (db : ListDb) (userId channelId : Uuid) (query : ListPostsQuery) :
    Except AppError (List (Uuid × Post)) :=
  (ensure ((channelId, userId) ∈ db.members) (.forbidden "Not a member of this channel")).bind fun _ =>
  (db.lastRead userId channelId).bind fun _ =>
    let values := query.values channelId
    if values.length ≠ query.argIndex then .error .database
    else match values[query.argIndex - 1]? with
      | some (.int limit) =>
        if limit < 0 then .error .database
        else
          let sign : Int := if query.after.isSome then 1 else -1
          let rows := (db.rows channelId).filter fun row => query.conditions.all (holds ilike db values row.2)
          .ok (Page.page (fun row => threadKey tie row.1 (sign * row.2.createdAt)) limit.toNat rows)
      | _ => .error .database

def liveRoots (db : ListDb) (channelId : Uuid) : List (Uuid × Post) :=
  Assoc.views (fun id post =>
    if post.channelId = channelId ∧ post.deletedAt = none ∧
      post.rootPostId = none then some (id, post) else none) db.posts

def toPost (row : Uuid × Post) : Client.Post where
  id := row.1.hyphenated
  channelId := some row.2.channelId.hyphenated
  userId := some row.2.userId.hyphenated
  message := row.2.message
  rootPostId := row.2.rootPostId.map Uuid.hyphenated
  clientMsgId := none
  isPinned := row.2.isPinned
  replyCount := some row.2.replyCount

/-- `postsApi.list`: the answer, unless the request fails. A cursor that is no id is refused. -/
def postsApiList (db : ListDb) (userId channelId : Uuid) (before : Option String) :
    Option (List Client.Post) :=
  match before.mapM Uuid.ofHyphenated with
  | some before =>
    match db.listPosts tie ilike userId channelId ⟨before, none, some 50, none, none⟩ with
    | .ok rows => some (rows.map toPost)
    | .error _ => none
  | none => none

/-- The channel's messages: every live root post once, oldest first. -/
def Shows (db : ListDb) (channelId : Uuid) (messages : List Client.Message) : Prop :=
  ∃ rows : List (Uuid × Post), rows.Perm (db.liveRoots channelId) ∧ rows.Pairwise (fun a b => a.2.createdAt ≤ b.2.createdAt) ∧
    messages = rows.map fun row => Client.postToMessage (toPost row)

end ListDb

/-! ### What is listed -/

namespace ListDb

variable {tie : Uuid ↪ ℕ} {ilike : String → String → Bool} {db : ListDb} {userId channelId : Uuid}

/-- The read state of a member does not stand without a position. -/
def Positioned (db : ListDb) (userId channelId : Uuid) : Prop := db.reads.lookup (userId, channelId) ≠ some none

theorem lastRead_of_positioned (h : db.Positioned userId channelId) : ∃ seq, db.lastRead userId channelId = .ok seq := by
  unfold lastRead
  split
  · exact ⟨_, rfl⟩
  · next hnull => exact absurd hnull h
  · exact ⟨_, rfl⟩

theorem lastRead_of_not_positioned (h : ¬ db.Positioned userId channelId) :
    db.lastRead userId channelId = .error .database := by
  unfold lastRead
  rw [not_not.1 h]

theorem listPosts_of_not_positioned (h : ¬ db.Positioned userId channelId) {query : ListPostsQuery}
    {rows : List (Uuid × Post)} : db.listPosts tie ilike userId channelId query ≠ .ok rows := by
  unfold listPosts
  rw [Ne, bind_eq_ok, lastRead_of_not_positioned h]
  rintro ⟨u, -, h⟩
  cases h

theorem listPosts_first (h : (channelId, userId) ∈ db.members) (hread : db.Positioned userId channelId) :
    db.listPosts tie ilike userId channelId ⟨none, none, some 50, none, none⟩ =
      .ok (Page.page (fun row => threadKey tie row.1 (-1 * row.2.createdAt)) 50 (db.rows channelId)) := by
  obtain ⟨seq, hseq⟩ := lastRead_of_positioned hread
  unfold listPosts
  rw [ensure, if_pos h, hseq]
  simp [Except.bind, ListPostsQuery.values, ListPostsQuery.argIndex, ListPostsQuery.conditions]

theorem listPosts_before {before : Uuid} {rows : List (Uuid × Post)} :
    db.listPosts tie ilike userId channelId ⟨some before, none, some 50, none, none⟩ ≠ .ok rows := by
  unfold listPosts
  rw [Ne, bind_eq_ok]
  rintro ⟨u, -, h⟩
  obtain ⟨seq, -, h⟩ := bind_eq_ok.1 h
  simp [ListPostsQuery.values, ListPostsQuery.argIndex] at h

theorem postsApiList_first (h : (channelId, userId) ∈ db.members) (hread : db.Positioned userId channelId) :
    db.postsApiList tie ilike userId channelId none =
      some ((Page.page (fun row => threadKey tie row.1 (-1 * row.2.createdAt)) 50 (db.rows channelId)).map toPost) := by
  simp [postsApiList, listPosts_first h hread]

theorem postsApiList_of_not_positioned (h : ¬ db.Positioned userId channelId) (before : Option String) :
    db.postsApiList tie ilike userId channelId before = none := by
  unfold postsApiList
  split
  · split
    · next hrows => exact absurd hrows (listPosts_of_not_positioned h)
    · rfl
  · rfl

theorem postsApiList_before {before : String} :
    db.postsApiList tie ilike userId channelId (some before) = none := by
  unfold postsApiList
  rw [Option.mapM_some]
  cases Uuid.ofHyphenated before with
  | none => rfl
  | some before =>
    dsimp only [Functor.map, Option.map]
    split
    · rename_i h
      exact absurd h listPosts_before
    · rfl

theorem rootPostId_toPost (row : Uuid × Post) :
    ((toPost row).rootPostId = none ∨ (toPost row).rootPostId = some "") ↔ row.2.rootPostId = none := by
  cases h : row.2.rootPostId with
  | none => simp [toPost, h]
  | some rootId =>
    have hne : rootId.hyphenated ≠ "" := fun heq => by
      have hlen := Uuid.length_hyphenated rootId
      rw [heq] at hlen
      cases hlen
    simp [toPost, h, hne]

theorem fetched_map_toPost (rows : List (Uuid × Post)) : Client.fetched (rows.map toPost) =
    (rows.filter fun row => row.2.rootPostId = none).reverse.map fun row => Client.postToMessage (toPost row) := by
  rw [Client.fetched, List.filter_map, List.map_map, ← List.map_reverse]
  congr 2
  refine List.filter_congr fun row _ => ?_
  exact decide_eq_decide.2 (rootPostId_toPost row)

theorem filter_rows : (db.rows channelId).filter (fun row => row.2.rootPostId = none) = db.liveRoots channelId := by
  unfold rows liveRoots Assoc.views
  rw [List.filter_filterMap]
  refine List.filterMap_congr fun e _ => ?_
  by_cases hroot : e.2.rootPostId = none
  · simp only [hroot, true_or, and_true]
    split <;> simp [Option.filter, hroot]
  · simp only [hroot, false_or, and_false, if_false]
    split <;> simp [Option.filter, hroot]

end ListDb

/-! ### The traversal -/

namespace MessageRun

/-- The end of the one call in flight, if there is one. -/
def finish (list : Option String → Option (List Client.Post)) (s : MessageRun) : MessageRun :=
  match s.requests with
  | [] => s
  | r :: _ => match list r.before with
    | some posts => s.assigned 0 r posts
    | none => { s with requests := s.requests.eraseIdx 0, loading := false }

variable {list : Option String → Option (List Client.Post)} {s : MessageRun} {channelId : String}
    {posts : List Client.Post}

theorem finish_of_idle (h : s.requests = []) : s.finish list = s := by
  rw [finish, h]

theorem hasMoreOlder_assigned {n : ℕ} {r : ListRequest} :
    (s.assigned n r posts).hasMoreOlder r.channelId = decide (50 ≤ posts.length) := by
  unfold assigned hasMoreOlder
  cases r.result (s.own r.channelId) posts <;> simp [assign]

theorem finish_fetchMessages (hidle : s.requests = []) (hlist : list none = some posts) :
    ((s.fetchMessages channelId).finish list).requests = [] ∧
      ((s.fetchMessages channelId).finish list).hasMoreOlder channelId = decide (50 ≤ posts.length) ∧
      ((s.fetchMessages channelId).finish list).own channelId = Client.fetched posts := by
  have hfinish : (s.fetchMessages channelId).finish list =
      (s.fetchMessages channelId).assigned 0 ⟨channelId, none, .nothing, none⟩ posts := by
    simp [finish, fetchMessages, hidle, hlist]
  rw [hfinish]
  refine ⟨?_, hasMoreOlder_assigned, ?_⟩
  · simp [assigned, ListRequest.result, assign, fetchMessages, hidle]
  · rw [own, list_assigned, if_pos rfl]
    rfl

theorem fetchOlderMessages_of_end (h : ¬ s.hasMoreOlder channelId) : s.fetchOlderMessages channelId = s := by
  rw [fetchOlderMessages, if_pos (.inr h)]

/-- While every request with a cursor fails and the first page is full, there is more to ask for. -/
theorem finish_fetchOlderMessages (hidle : s.requests = []) (hmore : s.hasMoreOlder channelId)
    (hfirst : list none = some posts) (hfull : 50 ≤ posts.length)
    (hbefore : ∀ before, list (some before) = none) :
    ((s.fetchOlderMessages channelId).finish list).requests = [] ∧
      ((s.fetchOlderMessages channelId).finish list).hasMoreOlder channelId := by
  unfold fetchOlderMessages
  split
  · rw [finish_of_idle hidle]
    exact ⟨hidle, hmore⟩
  · split
    · obtain ⟨hrequests, hend, -⟩ := finish_fetchMessages hidle hfirst
      exact ⟨hrequests, hend.trans (decide_eq_true hfull)⟩
    · simp only [finish, hidle, List.nil_append, hbefore, List.eraseIdx_cons_zero]
      exact ⟨trivial, hmore⟩

theorem finish_of_failing (hidle : s.requests = []) (hlist : ∀ before, list before = none) :
    (((s.fetchMessages channelId).finish list).requests = [] ∧
      ((s.fetchMessages channelId).finish list).hasMoreOlderByChannel = s.hasMoreOlderByChannel ∧
      ((s.fetchMessages channelId).finish list).client = s.client) ∧
    ((s.fetchOlderMessages channelId).finish list).requests = [] ∧
      ((s.fetchOlderMessages channelId).finish list).hasMoreOlderByChannel = s.hasMoreOlderByChannel ∧
      ((s.fetchOlderMessages channelId).finish list).client = s.client := by
  have hfirst : ((s.fetchMessages channelId).finish list).requests = [] ∧
      ((s.fetchMessages channelId).finish list).hasMoreOlderByChannel = s.hasMoreOlderByChannel ∧
      ((s.fetchMessages channelId).finish list).client = s.client := by
    simp [finish, fetchMessages, hidle, hlist]
  refine ⟨hfirst, ?_⟩
  unfold fetchOlderMessages
  split
  · rw [finish_of_idle hidle]
    exact ⟨hidle, rfl, rfl⟩
  · split
    · exact hfirst
    · simp [finish, hidle, hlist]

end MessageRun

namespace ScrollBack

variable (tie : ℕ → Uuid ↪ ℕ) (ilike : String → String → Bool) (db : ListDb) (userId channelId : Uuid)
    (s : MessageRun)

/-- The store after `fetchMessages` and `n` calls of `fetchOlderMessages`. -/
def scrollBack : ℕ → MessageRun
  | 0 => (s.fetchMessages channelId.hyphenated).finish (db.postsApiList (tie 0) ilike userId channelId)
  | n + 1 => ((scrollBack n).fetchOlderMessages channelId.hyphenated).finish
      (db.postsApiList (tie (n + 1)) ilike userId channelId)

/-- The traversal ends, and when it has, the store shows the channel. -/
def Complete : Prop :=
  (∃ n, ¬ (scrollBack tie ilike db userId channelId s n).hasMoreOlder channelId.hyphenated) ∧
    ∀ n, ¬ (scrollBack tie ilike db userId channelId s n).hasMoreOlder channelId.hyphenated →
      db.Shows channelId ((scrollBack tie ilike db userId channelId s n).own channelId.hyphenated)

variable {tie ilike db userId channelId s}

theorem length_firstPage {rows : List (Uuid × Post)} {tie : Uuid ↪ ℕ} :
    50 ≤ ((Page.page (fun row => threadKey tie row.1 (-1 * row.2.createdAt)) 50 rows).map ListDb.toPost).length ↔
      50 ≤ rows.length := by
  rw [List.length_map, Page.length_page]
  omega

theorem hasMoreOlder_of_full (hmember : (channelId, userId) ∈ db.members) (hread : db.Positioned userId channelId)
    (hidle : s.requests = []) (hfull : 50 ≤ (db.rows channelId).length) (n : ℕ) :
    (scrollBack tie ilike db userId channelId s n).requests = [] ∧
      (scrollBack tie ilike db userId channelId s n).hasMoreOlder channelId.hyphenated := by
  induction n with
  | zero =>
    obtain ⟨hrequests, hmore, -⟩ := MessageRun.finish_fetchMessages hidle (db.postsApiList_first hmember hread)
    exact ⟨hrequests, hmore.trans (decide_eq_true (length_firstPage.2 hfull))⟩
  | succ n ih =>
    exact MessageRun.finish_fetchOlderMessages ih.1 ih.2 (db.postsApiList_first hmember hread) (length_firstPage.2 hfull)
      fun before => ListDb.postsApiList_before

theorem shows_firstPage {tie : Uuid ↪ ℕ} (hshort : (db.rows channelId).length < 50) : db.Shows channelId
    (Client.fetched ((Page.page (fun row => threadKey tie row.1 (-1 * row.2.createdAt)) 50 (db.rows channelId)).map
      ListDb.toPost)) := by
  rw [Page.page_of_length_le hshort.le, ListDb.fetched_map_toPost]
  refine ⟨_, ?_, ?_, rfl⟩
  · rw [← ListDb.filter_rows]
    exact (List.reverse_perm _).trans (Page.orderBy_perm.filter _)
  · rw [List.pairwise_reverse]
    refine (Page.pairwise_le_orderBy.filter _).imp fun {a b} h => ?_
    have htime : -1 * a.2.createdAt ≤ -1 * b.2.createdAt := Prod.Lex.monotone_fst_ofLex h
    omega

theorem scrollBack_of_end (hidle : (scrollBack tie ilike db userId channelId s 0).requests = [])
    (hend : ¬ (scrollBack tie ilike db userId channelId s 0).hasMoreOlder channelId.hyphenated) (n : ℕ) :
    scrollBack tie ilike db userId channelId s n = scrollBack tie ilike db userId channelId s 0 := by
  induction n with
  | zero => rfl
  | succ n ih =>
    show ((scrollBack tie ilike db userId channelId s n).fetchOlderMessages _).finish _ = _
    rw [ih, MessageRun.fetchOlderMessages_of_end hend, MessageRun.finish_of_idle hidle]

theorem scrollBack_of_not_positioned (hread : ¬ db.Positioned userId channelId) (hidle : s.requests = []) (n : ℕ) :
    (scrollBack tie ilike db userId channelId s n).requests = [] ∧
      (scrollBack tie ilike db userId channelId s n).hasMoreOlderByChannel = s.hasMoreOlderByChannel ∧
      (scrollBack tie ilike db userId channelId s n).client = s.client := by
  induction n with
  | zero => exact (MessageRun.finish_of_failing hidle (ListDb.postsApiList_of_not_positioned hread)).1
  | succ n ih =>
    obtain ⟨hrequests, hmore, hclient⟩ := ih
    have hlist (before : Option String) : db.postsApiList (tie (n + 1)) ilike userId channelId before = none :=
      ListDb.postsApiList_of_not_positioned hread before
    obtain ⟨hrequests', hmore', hclient'⟩ := (MessageRun.finish_of_failing hrequests hlist).2
    exact ⟨hrequests', hmore'.trans hmore, hclient'.trans hclient⟩

theorem complete_iff_of_positioned (hmember : (channelId, userId) ∈ db.members) (hread : db.Positioned userId channelId)
    (hidle : s.requests = []) : Complete tie ilike db userId channelId s ↔ (db.rows channelId).length < 50 := by
  constructor
  · rintro ⟨⟨n, hend⟩, -⟩
    by_contra hfull
    exact hend (hasMoreOlder_of_full hmember hread hidle (by omega) n).2
  · intro hshort
    obtain ⟨hrequests, hmore, hown⟩ : (scrollBack tie ilike db userId channelId s 0).requests = [] ∧
        (scrollBack tie ilike db userId channelId s 0).hasMoreOlder channelId.hyphenated = _ ∧
        (scrollBack tie ilike db userId channelId s 0).own channelId.hyphenated = _ :=
      MessageRun.finish_fetchMessages hidle (ListDb.postsApiList_first hmember hread)
    have hend : ¬ (scrollBack tie ilike db userId channelId s 0).hasMoreOlder channelId.hyphenated := by
      rw [hmore, decide_eq_true_iff, length_firstPage]
      omega
    refine ⟨⟨0, hend⟩, fun n _ => ?_⟩
    rw [scrollBack_of_end hrequests hend n, hown]
    exact shows_firstPage hshort

/-- Scrolling back ends and shows the channel exactly if the channel's listing has fewer than 50 rows, where the read
state of the member has a position or no row, and otherwise if the store had the whole channel before. -/
theorem complete_iff_short (hmember : (channelId, userId) ∈ db.members) (hidle : s.requests = []) :
    Complete tie ilike db userId channelId s ↔
      db.Positioned userId channelId ∧ (db.rows channelId).length < 50 ∨
        ¬ db.Positioned userId channelId ∧ ¬ s.hasMoreOlder channelId.hyphenated ∧
          db.Shows channelId (s.own channelId.hyphenated) := by
  by_cases hread : db.Positioned userId channelId
  · simp only [hread, true_and, not_true_eq_false, false_and, or_false]
    exact complete_iff_of_positioned hmember hread hidle
  · have hmore (n : ℕ) : (scrollBack tie ilike db userId channelId s n).hasMoreOlder channelId.hyphenated =
        s.hasMoreOlder channelId.hyphenated := by
      rw [MessageRun.hasMoreOlder, (scrollBack_of_not_positioned hread hidle n).2.1, MessageRun.hasMoreOlder]
    have hown (n : ℕ) : (scrollBack tie ilike db userId channelId s n).own channelId.hyphenated =
        s.own channelId.hyphenated := by
      rw [MessageRun.own, (scrollBack_of_not_positioned hread hidle n).2.2, MessageRun.own]
    simp only [hread, false_and, false_or, not_false_eq_true, true_and, Complete, hmore, hown]
    exact ⟨fun h => ⟨h.1.choose_spec, h.2 0 h.1.choose_spec⟩, fun h => ⟨⟨0, h.1⟩, fun _ _ => h.2⟩⟩

/-- A channel 5 of user 1, who has read its first post, with `n` root posts of one time. -/
def busyChannel (n : ℕ) : ListDb where
  posts := (List.range n).foldl (fun posts id => posts.insert id ⟨5, 1, none, "hello", .obj [], [], false, 0, none, none, 0,
    none, 0⟩) ∅
  members := AList.insert (5, 1) () ∅
  reads := AList.insert (1, 5) (some 1) ∅
  channelType := fun _ => .Public

theorem busyChannel_positioned (n : ℕ) : (busyChannel n).Positioned 1 5 := by
  rw [ListDb.Positioned, busyChannel, AList.lookup_insert]
  exact nofun

theorem three_complete :
    Complete (fun _ => ⟨BitVec.toNat, BitVec.toNat_injective⟩) (fun _ _ => false) (busyChannel 3) 1 5
      (.init none none) :=
  (complete_iff_short ((AList.mem_insert _).2 (.inl rfl)) rfl).2 (.inl ⟨busyChannel_positioned 3, by decide +kernel⟩)

theorem fifty_endless :
    ¬ Complete (fun _ => ⟨BitVec.toNat, BitVec.toNat_injective⟩) (fun _ _ => false) (busyChannel 50) 1 5
      (.init none none) := by
  rintro ⟨⟨n, hend⟩, -⟩
  refine hend (hasMoreOlder_of_full ?_ (busyChannel_positioned 50) rfl ?_ n).2
  · exact (AList.mem_insert _).2 (.inl rfl)
  · decide +kernel

end ScrollBack

end Rustchat
