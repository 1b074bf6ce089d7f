import Rustchat.Threads

/-!
# Paging through a thread (`get_thread` of `services/posts.rs`)

`get_thread` orders the replies by time and goes on behind the id of the last one on the page. Ids are drawn at
random: the pages list every reply once exactly if at the end of every page the replies that are left are those
with a greater id (`ThreadPages.lists_iff_cut`).
-/

namespace Rustchat

namespace ThreadPages

variable (tie : Uuid ↪ ℕ)

/-- Follow `next_cursor` to the end. -/
def follow (db : PostDb) (postId : Uuid) (limit : Int) : ℕ → Option Uuid → Option (List String)
  | 0, _ => none
  | fuel + 1, cursor =>
    match db.getThread tie postId cursor limit with
    | .error _ => none
    | .ok response =>
      match response.nextCursor with
      | none => some response.order.tail
      | some next => (Uuid.ofHyphenated next).bind fun id =>
        (follow db postId limit fuel (some id)).map fun pages => response.order.tail ++ pages

/-- From the first page on every reply that is not deleted comes once, the older before the newer. -/
def Lists (db : PostDb) (postId : Uuid) (limit : Int) : Prop :=
  ∃ (fuel : ℕ) (keys : List (Uuid × Int)),
    follow tie db postId limit fuel none = some (keys.map fun k => k.1.hyphenated) ∧ keys.Perm (db.replyKeys postId) ∧
      keys.Pairwise fun a b => a.2 ≤ b.2

/-- The replies in the order in which the database has them. -/
def replies (db : PostDb) (postId : Uuid) : List (Uuid × Int) :=
  Page.orderBy (fun k => threadKey tie k.1 k.2) (db.replyKeys postId)

/-- What the cursor compares. -/
def Greater (c k : Uuid × Int) : Prop := c.1 < k.1

instance : DecidableRel Greater := fun c k => inferInstanceAs (Decidable (c.1 < k.1))

instance : IsStrictOrder (Uuid × Int) Greater where
  irrefl c := BitVec.lt_irrefl c.1
  trans _ _ _ := BitVec.lt_trans

def pageSize (limit : Int) : ℕ := (max 1 (min limit 100)).toNat

/-! ### One page -/

variable {tie} {db : PostDb} {r : Uuid} {cursor : Option Uuid} {limit : Int}

theorem map_orderBy_threadRows (tie : Uuid ↪ ℕ) (r : Uuid) (cursor : Option Uuid) (h : db.AuthorsExist) :
    (Page.orderBy (fun p => threadKey tie p.id p.createdAt) (db.threadRows r cursor)).map (fun p => (p.id, p.createdAt)) =
      (replies tie db r).filter fun k => cursor.all (· < k.1) := by
  unfold replies
  rw [← Page.orderBy_filter (nodup_threadKey PostDb.nodup_replyKeys), ← PostDb.map_threadRows h]
  exact List.map_insertionSort _ _ _ _ fun _ _ _ _ => Iff.rfl

theorem getThread_spec (cursor : Option Uuid) (limit : Int) (h : db.AuthorsExist)
    (hroot : ∃ root, db.posts.lookup r = some root ∧ root.deletedAt = none) :
    ∃ response, db.getThread tie r cursor limit = .ok response ∧
      response.order.tail = (((replies tie db r).filter fun k => cursor.all (· < k.1)).take (pageSize limit)).map
        (fun k => k.1.hyphenated) ∧
      response.nextCursor = if pageSize limit < ((replies tie db r).filter fun k => cursor.all (· < k.1)).length then
        (((replies tie db r).filter fun k => cursor.all (· < k.1)).take (pageSize limit)).getLast?.map
          fun k => k.1.hyphenated else none := by
  obtain ⟨root, hroot, hlive⟩ := hroot
  obtain ⟨author, hauthor⟩ := Option.isSome_iff_exists.1 (AList.lookup_isSome.2 (h r root hroot))
  have hparent : ((db.posts.lookup r).filter fun post => post.deletedAt = none).bind (db.joined r) =
      some (root.toResponse r (some author)) := by
    simp [hroot, hlive, Option.filter, PostDb.joined, hauthor]
  have hrows := map_orderBy_threadRows tie r cursor h
  have hmin : min (max 1 (min limit 100)).toNat ((max 1 (min limit 100)).toNat + 1) = pageSize limit := by
    unfold pageSize
    omega
  unfold PostDb.getThread
  rw [hparent]
  refine ⟨_, rfl, ?_, ?_⟩
  · rw [List.tail_cons, Page.take_page, hmin, Page.page, ← hrows, ← List.map_take, List.map_map]
    rfl
  · have hlen : (max 1 (min limit 100)).toNat < (Page.page (fun r => threadKey tie r.id r.createdAt)
        ((max 1 (min limit 100)).toNat + 1) (db.threadRows r cursor)).length ↔
        pageSize limit < (Page.orderBy (fun p => threadKey tie p.id p.createdAt) (db.threadRows r cursor)).length := by
      rw [Page.length_page, Page.orderBy_perm.length_eq]
      unfold pageSize
      omega
    rw [Page.take_page, hmin, Page.page, ← hrows, List.length_map, ← List.map_take, List.getLast?_map,
      Option.map_map]
    split
    · next h =>
      rw [if_pos (hlen.1 h)]
      rfl
    · next h => rw [if_neg fun h' => h (hlen.2 h')]

/-! ### All pages -/

theorem follow_eq (h : db.AuthorsExist) (hroot : ∃ root, db.posts.lookup r = some root ∧ root.deletedAt = none)
    (fuel : ℕ) : follow tie db r limit fuel cursor =
      (Page.walk Greater (pageSize limit) fuel ((replies tie db r).filter fun k => cursor.all (· < k.1))).map
        fun keys => keys.map fun k => k.1.hyphenated := by
  induction fuel generalizing cursor with
  | zero => rfl
  | succ fuel ih =>
    obtain ⟨response, hresponse, horder, hnext⟩ := getThread_spec cursor limit h hroot
    rw [follow, hresponse, Page.walk]
    dsimp only
    rw [hnext]
    by_cases hlen : pageSize limit < ((replies tie db r).filter fun k => cursor.all (· < k.1)).length
    · set rows := (replies tie db r).filter fun k => cursor.all (· < k.1) with hrows
      have hpos : 0 < pageSize limit := by
        unfold pageSize
        omega
      obtain ⟨c, hc⟩ : ∃ c, (rows.take (pageSize limit)).getLast? = some c := by
        refine Option.ne_none_iff_exists'.1 fun hnone => ?_
        have hempty := congrArg List.length (List.getLast?_eq_none_iff.1 hnone)
        rw [List.length_take, List.length_nil] at hempty
        omega
      have hcmem : cursor.all (· < c.1) = true :=
        (List.mem_filter.1 (List.mem_of_mem_take (List.mem_of_getLast? hc))).2
      -- behind the new cursor is what is greater among the rows behind the old one
      have hbehind : (replies tie db r).filter (fun k => (some c.1).all (· < k.1)) =
          rows.filter fun k => Greater c k := by
        rw [hrows, List.filter_filter]
        refine List.filter_congr fun k _ => ?_
        rw [Option.all_some, Bool.eq_iff_iff, Bool.and_eq_true, decide_eq_true_eq, decide_eq_true_eq]
        refine ⟨fun hk => ⟨hk, ?_⟩, fun hk => hk.1⟩
        cases cursor with
        | none => rfl
        | some d => exact decide_eq_true (BitVec.lt_trans (by simpa using hcmem) hk)
      rw [if_pos hlen, if_neg (Nat.not_le.2 hlen), hc, horder, Option.map_some, Option.bind_some]
      dsimp only
      rw [Uuid.ofHyphenated_hyphenated, Option.bind_some, ih, hbehind, Option.map_map, Option.map_map]
      refine Option.map_congr fun pages _ => ?_
      rw [Function.comp_apply, Function.comp_apply, List.map_append]
    · rw [if_neg hlen, if_pos (Nat.not_lt.1 hlen), horder, List.take_of_length_le (Nat.not_lt.1 hlen)]
      rfl

theorem follow_of_missing (h : ¬ ∃ root, db.posts.lookup r = some root ∧ root.deletedAt = none) (fuel : ℕ) :
    follow tie db r limit fuel cursor = none := by
  cases fuel with
  | zero => rfl
  | succ fuel =>
    have hparent : (db.posts.lookup r).filter (fun post => post.deletedAt = none) = none := by
      rw [Option.filter_eq_none_iff]
      exact fun root hroot hlive => h ⟨root, hroot, by simpa using hlive⟩
    have herror : db.getThread tie r cursor limit = .error (.notFound "Post not found") := by
      rw [PostDb.getThread, hparent]
      rfl
    rw [follow, herror]

theorem pageSize_pos : 0 < pageSize limit := by
  unfold pageSize
  omega

theorem replies_perm : (replies tie db r).Perm (db.replyKeys r) := Page.orderBy_perm

theorem nodup_replies : (replies tie db r).Nodup := replies_perm.nodup_iff.2 (PostDb.nodup_replyKeys.of_map _)

theorem filter_all : (replies tie db r).filter (fun k => (none : Option Uuid).all (· < k.1)) = replies tie db r := by
  simp

theorem root_of_lists (h : Lists tie db r limit) :
    ∃ root, db.posts.lookup r = some root ∧ root.deletedAt = none := by
  by_contra hroot
  obtain ⟨fuel, keys, hfollow, -⟩ := h
  rw [follow_of_missing hroot] at hfollow
  cases hfollow

theorem cut_of_lists (hdb : db.AuthorsExist) (h : Lists tie db r limit) :
    Page.Cut Greater (pageSize limit) (replies tie db r) := by
  have hroot := root_of_lists h
  obtain ⟨fuel, keys, hfollow, hkeys, -⟩ := h
  rw [follow_eq hdb hroot, filter_all, Option.map_eq_some_iff] at hfollow
  obtain ⟨out, hwalk, hout⟩ := hfollow
  have hids : ((replies tie db r).map fun k => k.1.hyphenated).Nodup := by
    have hnames := (@PostDb.nodup_replyKeys db r).map Uuid.hyphenated_injective
    rw [List.map_map] at hnames
    exact (replies_perm.map _).nodup_iff.2 hnames
  refine Page.cut_of_perm_walk pageSize_pos nodup_replies hwalk ?_
  refine Page.perm_of_map_perm hids (Page.walk_subset hwalk) ?_
  rw [hout]
  exact (hkeys.trans replies_perm.symm).map _

theorem lists_of_cut (hdb : db.AuthorsExist) (hroot : ∃ root, db.posts.lookup r = some root ∧ root.deletedAt = none)
    (h : Page.Cut Greater (pageSize limit) (replies tie db r)) : Lists tie db r limit := by
  refine ⟨(replies tie db r).length + 1, replies tie db r, ?_, replies_perm, ?_⟩
  · rw [follow_eq hdb hroot, filter_all, Page.walk_of_cut pageSize_pos h (Nat.lt_succ_self _)]
    rfl
  · refine Page.pairwise_le_orderBy.imp fun {a b} hab => ?_
    exact (Prod.Lex.toLex_le_toLex'.1 hab).1

/-- Following the cursors lists every reply once and in order exactly if the root is not deleted and each page ends
where the replies with a greater id begin. -/
theorem lists_iff_cut (tie : Uuid ↪ ℕ) (db : PostDb) (h : db.AuthorsExist) (r : Uuid) (limit : Int) :
    Lists tie db r limit ↔ (∃ root, db.posts.lookup r = some root ∧ root.deletedAt = none) ∧
      Page.Cut Greater (pageSize limit) (replies tie db r) :=
  ⟨fun hl => ⟨root_of_lists hl, cut_of_lists h hl⟩, fun hc => lists_of_cut h hc.1 hc.2⟩

/-- The thread of the post `7`, with replies of these ids and times. -/
def threadOf (keys : List (Uuid × Int)) : PostDb :=
  { ThreadRun.onePost with posts := keys.foldl (fun posts k => posts.insert k.1
    ⟨5, 2, some 7, "b", .obj [], [], false, k.2, none, none, 0, none, 0⟩) ThreadRun.onePost.posts }

def byId : Uuid ↪ ℕ := Uuid.number

theorem authorsExist_threadOf (keys : List (Uuid × Int)) : (threadOf keys).AuthorsExist := by
  have hfold : ∀ posts : Assoc Uuid Post, (∀ id post, posts.lookup id = some post → post.userId = 2) →
      ∀ id post, (keys.foldl (fun posts k => posts.insert k.1
        ⟨5, 2, some 7, "b", .obj [], [], false, k.2, none, none, 0, none, 0⟩) posts).lookup id = some post →
        post.userId = 2 := by
    induction keys with
    | nil => exact fun _ h => h
    | cons k keys ih =>
      refine fun posts h => ih _ fun id post hpost => ?_
      rcases Assoc.lookup_insert_cases hpost with ⟨-, rfl⟩ | ⟨-, hpost⟩
      · rfl
      · exact h id post hpost
  intro id post hpost
  have huser : post.userId = 2 := by
    refine hfold _ (fun id post hone => ?_) id post hpost
    rcases Assoc.lookup_insert_cases hone with ⟨-, rfl⟩ | ⟨-, hone⟩
    · rfl
    · cases hone
  rw [huser]
  show 2 ∈ ThreadRun.onePost.users
  decide

theorem lists_in_order : Lists byId (threadOf [(8, 1), (9, 2)]) 7 1 := by
  have hreplies : replies byId (threadOf [(8, 1), (9, 2)]) 7 = [(8, 1), (9, 2)] := by decide
  refine (lists_iff_cut byId _ (authorsExist_threadOf _) 7 1).2 ⟨⟨_, rfl, rfl⟩, ?_⟩
  rw [hreplies]
  show Page.Cut Greater 1 ([] ++ (8, 1) :: [(9, 2)])
  exact (Page.cut_append rfl (by decide)).2 ⟨⟨nofun, by decide⟩, Page.cut_of_length_le (by decide)⟩

/-- The second reply has the smaller id. -/
theorem skips_out_of_order : (threadOf [(9, 1), (8, 2)]).AuthorsExist ∧
    ¬ Lists byId (threadOf [(9, 1), (8, 2)]) 7 1 := by
  refine ⟨authorsExist_threadOf _, fun h => ?_⟩
  have hreplies : replies byId (threadOf [(9, 1), (8, 2)]) 7 = [(9, 1), (8, 2)] := by decide
  have hcut := cut_of_lists (authorsExist_threadOf _) h
  rw [hreplies] at hcut
  have hgreater := (hcut [] (9, 1) [(8, 2)] rfl (by decide) (by decide)).2 (8, 2) (by decide)
  exact absurd hgreater (by decide)

end ThreadPages
end Rustchat
