import Mathlib.Data.Prod.Lex
import Rustchat.Lib.Page
import Rustchat.Lib.Run
import Rustchat.Posts

/-!
# Threads (`services/posts.rs`)

`create_post` takes any post of the channel as the root of a reply, `get_thread` lists the direct replies of
a post that is not deleted, in pages that are ordered by time and continued by id. A run of `create_post`
keeps every reply visible in the thread of a post that is no reply exactly as long as the roots it is given
are such posts, not deleted, and no page is too full (`ThreadRun.visible_iff`).
-/

namespace Rustchat

/-- `tie` is the order in which the database has rows of one time. -/
def threadKey (tie : Uuid ↪ ℕ) (id : Uuid) (createdAt : Int) : Int ×ₗ ℕ := toLex (createdAt, tie id)

theorem threadKey_injective {tie : Uuid ↪ ℕ} {id id' : Uuid} {t t' : Int}
    (h : threadKey tie id t = threadKey tie id' t') : id = id' :=
  tie.injective (congrArg (fun k => (ofLex k).2) h)

theorem nodup_threadKey {α : Type*} {tie : Uuid ↪ ℕ} {rows : List α} {id : α → Uuid} {time : α → Int}
    (h : (rows.map id).Nodup) : (rows.map fun row => threadKey tie (id row) (time row)).Nodup := by
  rw [List.Nodup, List.pairwise_map] at h ⊢
  exact h.imp fun hne he => hne (threadKey_injective he)

theorem firsts_threadPage {α : Type*} {tie : Uuid ↪ ℕ} {rows : List α} {id : α → Uuid} {time : α → Int} {n : ℕ} :
    Page.Firsts time n rows (Page.page (fun row => threadKey tie (id row) (time row)) n rows) :=
  @Page.firsts_page _ _ _ (fun row => threadKey tie (id row) (time row)) n rows _ _ (fun k => (ofLex k).1)
    fun _ _ h => (Prod.Lex.toLex_le_toLex'.1 h).1

namespace PostDb

structure ThreadResponse where
  order : List String
  posts : Assoc String PostResponse
  nextCursor : Option String

variable (tie : Uuid ↪ ℕ)

/-- The rows of `posts` whose author is in `users`. -/
def joined (db : PostDb) (id : Uuid) (post : Post) : Option PostResponse :=
  (db.users.lookup post.userId).map fun user => post.toResponse id (some user)

def threadRows (db : PostDb) (postId : Uuid) (cursor : Option Uuid) : List PostResponse :=
  Assoc.views (fun id post =>
    if post.rootPostId = some postId ∧ post.deletedAt = none ∧
      cursor.all (· < id) then db.joined id post else none)
    db.posts

def getThread (db : PostDb) (postId : Uuid) (cursor : Option Uuid) (limit : Int) :
    Except AppError ThreadResponse :=
  let limit := (max 1 (min limit 100)).toNat
  (okOr (((db.posts.lookup postId).filter fun post => post.deletedAt = none).bind (db.joined postId))
    (.notFound "Post not found")).bind fun parent =>
    let rows := Page.page (fun r => threadKey tie r.id r.createdAt) (limit + 1) (db.threadRows postId cursor)
    let replies := rows.take limit
    .ok {
      order := parent.id.hyphenated :: replies.map fun r => r.id.hyphenated
      posts := replies.foldl (fun posts r => posts.insert r.id.hyphenated r)
        ((∅ : Assoc String PostResponse).insert parent.id.hyphenated parent)
      nextCursor := if limit < rows.length then replies.getLast?.map fun r => r.id.hyphenated else none }

/-- Some call for the thread of `postId` lists the reply. -/
def ListsReply (db : PostDb) (postId id : Uuid) : Prop :=
  ∃ cursor limit response, db.getThread tie postId cursor limit = .ok response ∧
    id.hyphenated ∈ response.order.tail

/-- `posts.user_id` references `users`. -/
def AuthorsExist (db : PostDb) : Prop := ∀ id post, db.posts.lookup id = some post → post.userId ∈ db.users

def replyKeys (db : PostDb) (r : Uuid) : List (Uuid × Int) :=
  Assoc.views (fun id post => if post.rootPostId = some r ∧ post.deletedAt = none then some (id, post.createdAt) else none)
    db.posts

/-- How many of the replies come before one, but have a greater id. No cursor skips them and not the reply. -/
def ahead (keys : List (Uuid × Int)) (id : Uuid) (createdAt : Int) : ℕ :=
  keys.countP fun k => id < k.1 ∧ threadKey tie k.1 k.2 < threadKey tie id createdAt

variable {tie} {db : PostDb} {r id : Uuid} {post : Post} {cursor : Option Uuid} {limit : Int}

theorem joined_proj (h : db.AuthorsExist) (hpost : db.posts.lookup id = some post) :
    (db.joined id post).map (fun p => (p.id, p.createdAt)) = some (id, post.createdAt) := by
  obtain ⟨user, huser⟩ := Option.isSome_iff_exists.1 (AList.lookup_isSome.2 (h id post hpost))
  rw [joined, huser]
  rfl

theorem map_threadRows (h : db.AuthorsExist) : (db.threadRows r cursor).map (fun p => (p.id, p.createdAt)) =
    (db.replyKeys r).filter fun k => cursor.all (· < k.1) := by
  unfold threadRows replyKeys Assoc.views
  rw [List.map_filterMap, List.filter_filterMap]
  refine List.filterMap_congr fun e he => ?_
  have hproj := joined_proj h (Assoc.mem_entries_iff.1 he)
  by_cases hr : e.2.rootPostId = some r ∧ e.2.deletedAt = none
  · by_cases hc : cursor.all (· < e.1) = true
    · simp [hr, hc, hproj, Option.filter]
    · simp [hr, hc, Option.filter]
  · have hn : ¬ (e.2.rootPostId = some r ∧ e.2.deletedAt = none ∧ cursor.all (· < e.1) = true) :=
      fun hn => hr ⟨hn.1, hn.2.1⟩
    simp [hr, hn]

theorem nodup_replyKeys : ((db.replyKeys r).map Prod.fst).Nodup := by
  refine Assoc.nodup_map_views fun k v w hw => ?_
  obtain ⟨-, hw⟩ := Option.ite_none_right_eq_some.1 hw
  rw [← Option.some.inj hw]

theorem mem_replyKeys {k : Uuid × Int} : k ∈ db.replyKeys r ↔
    ∃ post, db.posts.lookup k.1 = some post ∧ post.rootPostId = some r ∧ post.deletedAt = none ∧
      post.createdAt = k.2 := by
  unfold replyKeys
  rw [Assoc.mem_views]
  constructor
  · rintro ⟨id, post, hpost, hk⟩
    obtain ⟨⟨hr, hlive⟩, hk⟩ := Option.ite_none_right_eq_some.1 hk
    rw [← Option.some.inj hk]
    exact ⟨post, hpost, hr, hlive, rfl⟩
  · rintro ⟨post, hpost, hr, hlive, ht⟩
    exact ⟨k.1, post, hpost, by rw [if_pos ⟨hr, hlive⟩, ht]⟩

theorem eq_of_mem_replyKeys {t t' : Int} (h : (id, t) ∈ db.replyKeys r) (h' : (id, t') ∈ db.replyKeys r) :
    t = t' := by
  obtain ⟨post, hpost, -, -, rfl⟩ := mem_replyKeys.1 h
  obtain ⟨post', hpost', -, -, rfl⟩ := mem_replyKeys.1 h'
  rw [Option.some.inj (hpost.symm.trans hpost')]

theorem mem_order_iff (h : db.AuthorsExist) {response : ThreadResponse}
    (hr : db.getThread tie r cursor limit = .ok response) : id.hyphenated ∈ response.order.tail ↔
      ∃ t, (id, t) ∈ db.replyKeys r ∧ cursor.all (· < id) = true ∧
        ((db.replyKeys r).filter fun k => cursor.all (· < k.1)).countP
          (fun k => threadKey tie k.1 k.2 < threadKey tie id t) < (max 1 (min limit 100)).toNat := by
  simp only [getThread, bind_eq_ok, okOr_eq_ok, Except.ok.injEq] at hr
  obtain ⟨parent, -, rfl⟩ := hr
  have hmap : (db.threadRows r cursor).map (fun p => (p.id, p.createdAt)) = _ := map_threadRows h
  have hnodup : ((db.threadRows r cursor).map fun p => threadKey tie p.id p.createdAt).Nodup := by
    have hfilter : (((db.replyKeys r).filter fun k => cursor.all (· < k.1)).map Prod.fst).Nodup :=
      nodup_replyKeys.sublist (List.filter_sublist.map Prod.fst)
    rw [← hmap, List.map_map] at hfilter
    exact nodup_threadKey hfilter
  have hrank (k : Int ×ₗ ℕ) : Page.rank (fun p => threadKey tie p.id p.createdAt) k (db.threadRows r cursor) =
      ((db.replyKeys r).filter fun k => cursor.all (· < k.1)).countP (fun k' => threadKey tie k'.1 k'.2 < k) := by
    rw [← hmap, List.countP_map]
    rfl
  have hmem (t : Int) : (id, t) ∈ (db.replyKeys r).filter (fun k => cursor.all (· < k.1)) ↔
      ∃ p ∈ db.threadRows r cursor, p.id = id ∧ p.createdAt = t := by
    rw [← hmap, List.mem_map]
    simp
  rw [List.tail_cons, List.mem_map, Page.take_page]
  simp only [Page.mem_page_iff hnodup, hrank]
  have hmin : min (max 1 (min limit 100)).toNat ((max 1 (min limit 100)).toNat + 1) = (max 1 (min limit 100)).toNat := by
    omega
  rw [hmin]
  constructor
  · rintro ⟨p, ⟨hp, hlt⟩, hid⟩
    obtain rfl := Uuid.hyphenated_injective hid
    obtain ⟨hk, hc⟩ := List.mem_filter.1 ((hmem p.createdAt).2 ⟨p, hp, rfl, rfl⟩)
    exact ⟨p.createdAt, hk, hc, hlt⟩
  · rintro ⟨t, hk, hc, hlt⟩
    obtain ⟨p, hp, rfl, rfl⟩ := (hmem t).1 (List.mem_filter.2 ⟨hk, hc⟩)
    exact ⟨p, ⟨hp, hlt⟩, rfl⟩

/-- A reply can be listed if and only if the post it answers is not deleted and fewer than a hundred replies are
ahead of it. -/
theorem listsReply_iff (h : db.AuthorsExist) {t : Int} (hid : (id, t) ∈ db.replyKeys r) : db.ListsReply tie r id ↔
    (∃ root, db.posts.lookup r = some root ∧ root.deletedAt = none) ∧
    ahead tie (db.replyKeys r) id t < 100 := by
  constructor
  · rintro ⟨cursor, limit, response, hr, hmem⟩
    obtain ⟨t', hid', hc, hlt⟩ := (mem_order_iff h hr).1 hmem
    obtain rfl := eq_of_mem_replyKeys hid hid'
    refine ⟨?_, ?_⟩
    · simp only [getThread, bind_eq_ok, okOr_eq_ok, Option.bind_eq_some_iff, Option.filter_eq_some_iff,
        decide_eq_true_eq] at hr
      obtain ⟨_, ⟨root, hroot, -⟩, -⟩ := hr
      exact ⟨root, hroot⟩
    · have hle : ahead tie (db.replyKeys r) id t ≤ ((db.replyKeys r).filter fun k => cursor.all (· < k.1)).countP
          (fun k => threadKey tie k.1 k.2 < threadKey tie id t) := by
        unfold ahead
        rw [List.countP_filter]
        refine List.countP_mono_left fun k _ hk => ?_
        simp only [Bool.decide_and, Bool.and_eq_true, decide_eq_true_eq] at hk ⊢
        refine ⟨hk.2, ?_⟩
        cases cursor with
        | none => rfl
        | some c => exact decide_eq_true (BitVec.lt_trans (by simpa using hc) hk.1)
      omega
  · rintro ⟨⟨root, hroot, hlive⟩, hlt⟩
    let cursor : Option Uuid := if id = 0 then none else some (id - 1)
    have hcursor (k : Uuid) : cursor.all (· < k) = true ↔ id ≤ k := by
      unfold cursor
      split
      · next h0 =>
        rw [h0]
        exact ⟨fun _ => by bv_omega, fun _ => rfl⟩
      · next h0 =>
        rw [Option.all_some, decide_eq_true_eq]
        bv_omega
    obtain ⟨author, hauthor⟩ := Option.isSome_iff_exists.1 (AList.lookup_isSome.2 (h r root hroot))
    have hresponse : ∃ response, db.getThread tie r cursor 100 = .ok response := by
      simp only [getThread, bind_eq_ok, okOr_eq_ok, Option.bind_eq_some_iff, Option.filter_eq_some_iff]
      exact ⟨_, root.toResponse r (some author),
        ⟨root, ⟨hroot, by simpa using hlive⟩, by rw [joined, hauthor]; rfl⟩, rfl⟩
    obtain ⟨response, hresponse⟩ := hresponse
    refine ⟨cursor, 100, response, hresponse,
      (mem_order_iff h hresponse).2 ⟨t, hid, (hcursor id).2 (BitVec.le_refl id), ?_⟩⟩
    have hle : ((db.replyKeys r).filter fun k => cursor.all (· < k.1)).countP
        (fun k => threadKey tie k.1 k.2 < threadKey tie id t) ≤ ahead tie (db.replyKeys r) id t := by
      unfold ahead
      rw [List.countP_filter]
      refine List.countP_mono_left fun k hkmem hk => ?_
      simp only [Bool.decide_and, Bool.and_eq_true, decide_eq_true_eq, hcursor] at hk ⊢
      obtain ⟨id', t'⟩ := k
      refine ⟨BitVec.lt_of_le_ne hk.2 fun he => ?_, hk.1⟩
      obtain rfl : id = id' := he
      rw [eq_of_mem_replyKeys hkmem hid] at hk
      exact lt_irrefl _ hk.1
    exact lt_of_le_of_lt hle hlt

variable {codecs : Codecs} {isAlphanumeric : Char → Bool} {userId channelId : Uuid} {input : CreatePost}
  {clientMsgId : Option String} {drawn : Drawn} {w : PostWrite} {envs : List WsEnvelope} {props : Json}

theorem createPost_write
    (h : db.createPost codecs isAlphanumeric userId channelId input clientMsgId drawn = .ok (w, envs)) :
    db.MayCreate drawn userId channelId input ∧
      ∃ props, w = .insert drawn.id (db.newPost userId channelId input drawn) props := by
  refine ⟨createPost_ok_iff.1 ⟨_, h⟩, ?_⟩
  simp only [createPost, bind_eq_ok, Except.ok.injEq, Prod.mk.injEq] at h
  obtain ⟨_, -, _, -, _, -, _, -, _, -, rfl, -⟩ := h
  exact ⟨_, rfl⟩

structure SameRow (post post' : Post) : Prop where
  channelId : post'.channelId = post.channelId
  userId : post'.userId = post.userId
  rootPostId : post'.rootPostId = post.rootPostId
  createdAt : post'.createdAt = post.createdAt
  deletedAt : post'.deletedAt = post.deletedAt

theorem lookup_write_insert (db : PostDb) (id : Uuid) (new : Post) (props : Json) :
    ∃ f : Uuid → Post → Post, (∀ k post, SameRow post (f k post)) ∧
      ∀ k, (db.write (.insert id new props)).posts.lookup k = (if k = id then some new else db.posts.lookup k).map (f k) := by
  let put (k : Uuid) (post : Post) : Post := if k = id then { post with props := props } else post
  have hput (k : Uuid) (post : Post) : SameRow post (put k post) := by
    unfold put
    split
    · exact ⟨rfl, rfl, rfl, rfl, rfl⟩
    · exact ⟨rfl, rfl, rfl, rfl, rfl⟩
  have hlookup (k : Uuid) : (db.posts.insert id { new with props := props }).lookup k =
      (if k = id then some new else db.posts.lookup k).map (put k) := by
    rw [Assoc.lookup_insert_eq]
    unfold put
    split
    · rfl
    · simp
  let count (post : Post) : Post :=
    { post with replyCount := post.replyCount + 1, lastReplyAt := some new.createdAt }
  have hposts : (db.write (.insert id new props)).posts = new.rootPostId.elim
    (db.posts.insert id { new with props := props }) fun r => Assoc.modify r count (db.posts.insert id { new with props := props }) := rfl
  rw [hposts]
  generalize db.posts.insert id { new with props := props } = posts at hlookup
  cases new.rootPostId with
  | none => exact ⟨put, hput, hlookup⟩
  | some r =>
    refine ⟨fun k post => if k = r then count (put k post) else put k post, fun k post => ?_, fun k => ?_⟩
    · have h := hput k post
      dsimp only
      split
      · exact ⟨h.channelId, h.userId, h.rootPostId, h.createdAt, h.deletedAt⟩
      · exact h
    · rw [Option.elim_some, Assoc.lookup_modify]
      by_cases hk : k = r
      · subst hk
        rw [if_pos rfl, hlookup, Option.map_map]
        simp [Function.comp_def]
      · rw [if_neg hk, hlookup]
        simp [hk]

theorem exists_rows (db : PostDb) {id : Uuid} (new : Post) (props : Json) (hfresh : id ∉ db.posts) :
    ∃ f : Uuid → Post → Post, (∀ k post, SameRow post (f k post)) ∧
      (db.write (.insert id new props)).posts.lookup id = some (f id new) ∧
      (∀ k post, db.posts.lookup k = some post → (db.write (.insert id new props)).posts.lookup k = some (f k post)) ∧
      ∀ k post', (db.write (.insert id new props)).posts.lookup k = some post' →
        k = id ∧ post' = f id new ∨ ∃ post, db.posts.lookup k = some post ∧ post' = f k post := by
  obtain ⟨f, hf, hlookup⟩ := lookup_write_insert db id new props
  refine ⟨f, hf, by rw [hlookup, if_pos rfl]; rfl, fun k post hpost => ?_, fun k post' hpost' => ?_⟩
  · have hne : k ≠ id := by
      rintro rfl
      exact hfresh (AList.lookup_isSome.1 (by rw [hpost]; rfl))
    rw [hlookup, if_neg hne, hpost]
    rfl
  · rw [hlookup] at hpost'
    split at hpost'
    · next hk =>
      subst hk
      exact .inl ⟨rfl, (Option.some.inj hpost').symm⟩
    · obtain ⟨post, hpost, rfl⟩ := Option.map_eq_some_iff.1 hpost'
      exact .inr ⟨post, hpost, rfl⟩

theorem replyKeys_insert (db : PostDb) {id : Uuid} {new : Post} (props : Json) (r : Uuid) (hfresh : id ∉ db.posts)
    (hlive : new.deletedAt = none) : ((db.write (.insert id new props)).replyKeys r).Perm
      ((if new.rootPostId = some r then [(id, new.createdAt)] else []) ++ db.replyKeys r) := by
  have hinsert := Assoc.views_insert_new (v := { new with props := props }) (m := db.posts) (k := id)
    (g := fun id post => if post.rootPostId = some r ∧ post.deletedAt = none then some (id, post.createdAt) else none) hfresh
  have hnew : (if new.rootPostId = some r then [(id, new.createdAt)] else []) =
      (if new.rootPostId = some r ∧ new.deletedAt = none then some (id, new.createdAt) else none).toList := by
    by_cases hr : new.rootPostId = some r
    · simp [hr, hlive]
    · simp [hr]
  rw [hnew, replyKeys, replyKeys, ← hinsert]
  cases hr : new.rootPostId with
  | none => rw [write, hr]; rfl
  | some r' =>
    rw [write, hr]
    exact Assoc.views_modify_perm fun post _ => rfl

theorem ahead_insert (tie : Uuid ↪ ℕ) (db : PostDb) {id : Uuid} (new : Post) (props : Json) (r : Uuid)
    (hfresh : id ∉ db.posts) (hlive : new.deletedAt = none) (k : Uuid) (t : Int) :
    ahead tie ((db.write (.insert id new props)).replyKeys r) k t = ahead tie (db.replyKeys r) k t +
      if new.rootPostId = some r ∧ k < id ∧
        threadKey tie id new.createdAt < threadKey tie k t then 1 else 0 := by
  unfold ahead
  rw [(replyKeys_insert db props r hfresh hlive).countP_eq, List.countP_append, Nat.add_comm]
  congr 1
  by_cases hr : new.rootPostId = some r
  · simp [hr, List.countP_cons]
  · simp [hr]

end PostDb

/-! ### Runs of `create_post` -/

structure CreateCall where
  userId : Uuid
  channelId : Uuid
  input : CreatePost
  clientMsgId : Option String
  drawn : Drawn

/-- The tables, and the posts that the run has created. -/
structure ThreadRun where
  db : PostDb
  created : List Uuid

namespace ThreadRun

variable (codecs : Codecs) (isAlphanumeric : Char → Bool) (tie : Uuid ↪ ℕ)

def step (s : ThreadRun) (call : CreateCall) : Option ThreadRun :=
  match s.db.createPost codecs isAlphanumeric call.userId call.channelId call.input call.clientMsgId call.drawn with
  | .ok (w, _) => some { db := s.db.write w, created := call.drawn.id :: s.created }
  | .error _ => some s

/-- Every created reply is in the thread of a post of its channel that is no reply, which lists it. -/
def Visible (s : ThreadRun) : Prop :=
  ∀ id ∈ s.created, ∀ post, s.db.posts.lookup id = some post → post.rootPostId ≠ none →
    ∃ r root, post.rootPostId = some r ∧ s.db.posts.lookup r = some root ∧ root.channelId = post.channelId ∧
      root.rootPostId = none ∧ s.db.ListsReply tie r id

/-- The root of a reply that is accepted is a live post and no reply, the new reply can be listed, and it puts
no created reply out of reach. -/
def Rooted (s : ThreadRun) (call : CreateCall) : Prop :=
  s.db.MayCreate call.drawn call.userId call.channelId call.input → ∀ r, call.input.rootPostId = some r →
    let id := call.drawn.id
    let now := call.drawn.now.toInt
    (∃ root, s.db.posts.lookup r = some root ∧ root.deletedAt = none ∧ root.rootPostId = none) ∧
    PostDb.ahead tie (s.db.replyKeys r) id now < 100 ∧
    ∀ k ∈ s.db.replyKeys r, k.1 ∈ s.created → k.1 < id → threadKey tie id now < threadKey tie k.1 k.2 →
      PostDb.ahead tie (s.db.replyKeys r) k.1 k.2 + 1 < 100

/-- What every run keeps: the created posts stand in the table and answer posts of their channels. -/
structure Inv (s : ThreadRun) : Prop where
  authors : s.db.AuthorsExist
  created : ∀ id ∈ s.created, ∃ post, s.db.posts.lookup id = some post ∧ post.deletedAt = none ∧
    ∀ r, post.rootPostId = some r → ∃ root, s.db.posts.lookup r = some root ∧ root.channelId = post.channelId

/-! ### One call -/

variable {codecs isAlphanumeric tie} {s s' : ThreadRun} {call : CreateCall}

theorem step_cases (h : s.step codecs isAlphanumeric call = some s') :
    ¬ s.db.MayCreate call.drawn call.userId call.channelId call.input ∧ s' = s ∨
      s.db.MayCreate call.drawn call.userId call.channelId call.input ∧
        ∃ props, s' = { db := s.db.write (.insert call.drawn.id
          (s.db.newPost call.userId call.channelId call.input call.drawn) props), created :=
            call.drawn.id :: s.created } := by
  unfold step at h
  split at h
  · next w envs hw =>
    obtain ⟨hmay, props, rfl⟩ := PostDb.createPost_write hw
    exact .inr ⟨hmay, props, (Option.some.inj h).symm⟩
  · next e he =>
    refine .inl ⟨fun hmay => ?_, (Option.some.inj h).symm⟩
    obtain ⟨res, hres⟩ : ∃ res, s.db.createPost codecs isAlphanumeric call.userId call.channelId call.input
      call.clientMsgId call.drawn = .ok res := PostDb.createPost_ok_iff.2 hmay
    rw [he] at hres
    cases hres

theorem Inv.step (h : s.Inv) (hs : s.step codecs isAlphanumeric call = some s') : s'.Inv := by
  rcases step_cases hs with ⟨-, rfl⟩ | ⟨hmay, props, rfl⟩
  · exact h
  obtain ⟨⟨user, huser, -⟩, -, -, hroot, hfresh⟩ := hmay
  have huser' : call.userId ∈ s.db.users := AList.lookup_isSome.1 (by rw [huser]; rfl)
  obtain ⟨f, hf, hnew, hold, hrows⟩ := PostDb.exists_rows s.db
    (s.db.newPost call.userId call.channelId call.input call.drawn) props hfresh
  refine ⟨fun k post' hpost' => ?_, fun k hk => ?_⟩
  · rcases hrows k post' hpost' with ⟨rfl, rfl⟩ | ⟨post, hpost, rfl⟩
    · rw [(hf _ _).userId]
      exact huser'
    · rw [(hf _ _).userId]
      exact h.authors k post hpost
  · rcases List.mem_cons.1 hk with rfl | hk
    · refine ⟨_, hnew, (hf _ _).deletedAt, fun r hr => ?_⟩
      obtain ⟨root, hlr, hc⟩ := hroot r ((hf _ _).rootPostId.symm.trans hr)
      exact ⟨_, hold r root hlr, by rw [(hf _ _).channelId, (hf _ _).channelId, hc]; rfl⟩
    · obtain ⟨post, hpost, hlive, hr⟩ := h.created k hk
      refine ⟨_, hold k post hpost, (hf _ _).deletedAt.trans hlive, fun r hpr => ?_⟩
      obtain ⟨root, hlr, hc⟩ := hr r ((hf _ _).rootPostId.symm.trans hpr)
      exact ⟨_, hold r root hlr, by rw [(hf _ _).channelId, (hf _ _).channelId, hc]⟩

theorem Inv.visible_iff (h : s.Inv) : s.Visible tie ↔
    ∀ id ∈ s.created, ∀ post, s.db.posts.lookup id = some post → ∀ r, post.rootPostId = some r →
      (∃ root, s.db.posts.lookup r = some root ∧ root.deletedAt = none ∧ root.rootPostId = none) ∧
        PostDb.ahead tie (s.db.replyKeys r) id post.createdAt < 100 := by
  have hkey {id : Uuid} {post : Post} (hid : id ∈ s.created) (hpost : s.db.posts.lookup id = some post) {r : Uuid}
      (hr : post.rootPostId = some r) : (id, post.createdAt) ∈ s.db.replyKeys r := by
    obtain ⟨post', hpost', hlive, -⟩ := h.created id hid
    obtain rfl := Option.some.inj (hpost.symm.trans hpost')
    exact PostDb.mem_replyKeys.2 ⟨post, hpost, hr, hlive, rfl⟩
  constructor
  · intro hv id hid post hpost r hr
    obtain ⟨r', root, hr', hroot, -, hnone, hlist⟩ := hv id hid post hpost (by rw [hr]; simp)
    obtain rfl := Option.some.inj (hr.symm.trans hr')
    obtain ⟨⟨root', hroot', hlive⟩, hlt⟩ := (PostDb.listsReply_iff h.authors (hkey hid hpost hr)).1 hlist
    obtain rfl := Option.some.inj (hroot.symm.trans hroot')
    exact ⟨⟨root, hroot, hlive, hnone⟩, hlt⟩
  · intro hv id hid post hpost hne
    obtain ⟨r, hr⟩ := Option.ne_none_iff_exists'.1 hne
    obtain ⟨⟨root, hroot, hlive, hnone⟩, hlt⟩ := hv id hid post hpost r hr
    obtain ⟨post', hpost', -, hchannel⟩ := h.created id hid
    obtain rfl := Option.some.inj (hpost.symm.trans hpost')
    obtain ⟨root', hroot', hc⟩ := hchannel r hr
    obtain rfl := Option.some.inj (hroot.symm.trans hroot')
    exact ⟨r, root, hr, hroot, hc, hnone, (PostDb.listsReply_iff h.authors (hkey hid hpost hr)).2
      ⟨⟨root, hroot, hlive⟩, hlt⟩⟩

theorem Visible.step_iff (hI : s.Inv) (hv : s.Visible tie) (hs : s.step codecs isAlphanumeric call = some s') :
    s'.Visible tie ↔ s.Rooted tie call := by
  have hI' := hI.step hs
  rw [hI.visible_iff] at hv
  rw [hI'.visible_iff]
  rcases step_cases hs with ⟨hno, rfl⟩ | ⟨hmay, props, rfl⟩
  · exact ⟨fun _ hmay => absurd hmay hno, fun _ => hv⟩
  have hrootOf := hmay.2.2.2.1
  have hfresh := hmay.2.2.2.2
  obtain ⟨f, hf, hnew, hold, hrows⟩ := PostDb.exists_rows s.db
    (s.db.newPost call.userId call.channelId call.input call.drawn) props hfresh
  have hahead (r k : Uuid) (t : Int) := PostDb.ahead_insert tie s.db
    (s.db.newPost call.userId call.channelId call.input call.drawn) props r hfresh rfl k t
  have hpresent {k : Uuid} {post : Post} (hpost : s.db.posts.lookup k = some post) : k ≠ call.drawn.id := by
    rintro rfl
    exact hfresh (AList.lookup_isSome.1 (by rw [hpost]; rfl))
  constructor
  · intro h _ r hr
    obtain ⟨⟨root', hroot', hlive, hnone⟩, hlt⟩ :=
      h _ List.mem_cons_self _ hnew r ((hf _ _).rootPostId.trans hr)
    obtain ⟨root, hroot, -⟩ := hrootOf r hr
    obtain rfl := Option.some.inj (hroot'.symm.trans (hold r root hroot))
    refine ⟨⟨root, hroot, (hf _ _).deletedAt.symm.trans hlive, (hf _ _).rootPostId.symm.trans hnone⟩, ?_, ?_⟩
    · rw [hahead, (hf _ _).createdAt] at hlt
      exact lt_of_le_of_lt (Nat.le_add_right _ _) hlt
    · rintro ⟨k, t⟩ hk hcreated hid hkey
      obtain ⟨post, hpost, hpr, -, rfl⟩ := PostDb.mem_replyKeys.1 hk
      obtain ⟨-, hlt⟩ := h k (List.mem_cons_of_mem _ hcreated) _ (hold k post hpost) r ((hf _ _).rootPostId.trans hpr)
      rw [(hf _ _).createdAt, hahead, if_pos ⟨hr, hid, hkey⟩] at hlt
      exact hlt
  · intro h k hk post' hpost' r hr
    rcases hrows k post' hpost' with ⟨rfl, rfl⟩ | ⟨post, hpost, rfl⟩
    · obtain ⟨⟨root, hroot, hlive, hnone⟩, hlt, -⟩ := h hmay r ((hf _ _).rootPostId.symm.trans hr)
      refine ⟨⟨_, hold r root hroot, (hf _ _).deletedAt.trans hlive, (hf _ _).rootPostId.trans hnone⟩, ?_⟩
      rw [hahead, if_neg fun hn => absurd hn.2.1 (BitVec.lt_irrefl _), (hf _ _).createdAt]
      exact hlt
    · have hcreated : k ∈ s.created := (List.mem_cons.1 hk).resolve_left (hpresent hpost)
      have hpr := (hf _ _).rootPostId.symm.trans hr
      obtain ⟨⟨root, hroot, hlive, hnone⟩, hlt⟩ := hv k hcreated post hpost r hpr
      refine ⟨⟨_, hold r root hroot, (hf _ _).deletedAt.trans hlive, (hf _ _).rootPostId.trans hnone⟩, ?_⟩
      rw [hahead, (hf _ _).createdAt]
      split
      · next hn =>
        obtain ⟨post₀, hpost₀, hlive₀, -⟩ := hI.created k hcreated
        obtain rfl := Option.some.inj (hpost.symm.trans hpost₀)
        exact (h hmay r hn.1).2.2 (k, post.createdAt)
          (PostDb.mem_replyKeys.2 ⟨post, hpost, hpr, hlive₀, rfl⟩) hcreated hn.2.1 hn.2.2
      · exact hlt

/-- A run of `create_post` calls keeps every created reply visible if and only if the root of every accepted
reply is a live post that is no reply, and no reply gets a hundred others ahead of it. -/
theorem visible_iff_rooted (codecs : Codecs) (isAlphanumeric : Char → Bool) (tie : Uuid ↪ ℕ) (db : PostDb)
    (hdb : db.AuthorsExist) (calls : List CreateCall) :
    Run.AllStates (step codecs isAlphanumeric) (Visible tie) ⟨db, []⟩ calls ↔
      Run.AllSteps (step codecs isAlphanumeric) (Rooted tie) ⟨db, []⟩ calls := by
  have henabled (s : ThreadRun) (call : CreateCall) : ∃ s', s.step codecs isAlphanumeric call = some s' := by
    unfold step
    split
    · exact ⟨_, rfl⟩
    · exact ⟨_, rfl⟩
  obtain ⟨t, ht⟩ := Run.exists_exec_of_enabled henabled ⟨db, []⟩ calls
  refine Run.allStates_iff_allSteps (I := Inv) (fun s call s' h hs => h.step hs)
    (fun s call s' hI hv hs => hv.step_iff hI hs) ⟨hdb, fun id hid => ?_⟩ (fun id hid => ?_) ht
  · exact absurd hid List.not_mem_nil
  · exact absurd hid List.not_mem_nil

/-- User `2` answers the post `7` and then its own answer `8`. -/
def answers : List CreateCall :=
  [⟨2, 5, ⟨"b", some 7, none, [], none⟩, none, ⟨8, 1, 1⟩⟩,
    ⟨2, 5, ⟨"c", some 8, none, [], none⟩, none, ⟨9, 2, 2⟩⟩]

def onePost : PostDb :=
  ⟨AList.insert 7 ⟨5, 2, none, "a", .obj [], [], false, 0, none, none, 0, none, 0⟩ ∅, AList.insert (5, 2) () ∅,
    AList.insert 2 ⟨"member", "ann", none⟩ ∅, [("member", "post.create")], ∅, none, 1⟩

theorem onePost_authorsExist : onePost.AuthorsExist := by
  intro id post h
  rcases Assoc.lookup_insert_cases h with ⟨-, rfl⟩ | ⟨-, h⟩
  · decide
  · cases h

def plainCodecs : Codecs :=
  ⟨Uuid.ofHyphenated, fun s => if s = "1970-01-01T00:00:00Z" then some 0 else none,
    fun _ => "1970-01-01T00:00:00Z", id⟩

theorem first_answer_visible : Run.AllStates (step plainCodecs Char.isAlphanum) (Visible ⟨BitVec.toNat, BitVec.toNat_injective⟩)
    ⟨onePost, []⟩ (answers.take 1) := by
  refine (visible_iff_rooted plainCodecs Char.isAlphanum _ onePost onePost_authorsExist _).2 ?_
  refine Run.allSteps_cons.2 ⟨fun _ r hr => ?_, fun s' _ => Run.allSteps_nil⟩
  obtain rfl : 7 = r := Option.some.inj hr
  refine ⟨⟨_, rfl, rfl, rfl⟩, by decide, fun k hk => ?_⟩
  exact absurd hk List.not_mem_nil

/-- The answer to an answer is in the thread of a reply. -/
theorem second_answer_hidden : onePost.AuthorsExist ∧
    ¬ Run.AllStates (step plainCodecs Char.isAlphanum) (Visible ⟨BitVec.toNat, BitVec.toNat_injective⟩)
      ⟨onePost, []⟩ answers := by
  refine ⟨onePost_authorsExist, fun h => ?_⟩
  obtain ⟨r, root, hr, hroot, -, hnone, -⟩ := h answers [] rfl _ rfl 9 (by decide) _ rfl nofun
  obtain rfl : 8 = r := Option.some.inj hr
  have hreply : root.rootPostId = some 7 := by
    rw [← Option.some.inj hroot]
    rfl
  rw [hreply] at hnone
  cases hnone

end ThreadRun
end Rustchat
