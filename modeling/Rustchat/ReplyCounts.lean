import Rustchat.Threads

/-!
# Counted replies (`services/posts.rs`, `api/posts.rs`, `api/v4/posts.rs`)

A root post keeps how many replies it has and when the last one came. `create_post` counts a reply in a statement of
its own, which has its own `NOW()`; the handlers that delete a post leave its root alone.
`ReplyCounts.counts_iff_keeps` says which runs keep the numbers right.
-/

namespace Rustchat

namespace ReplyCounts

/-- A request, what it draws, and `NOW()` of the statement that counts the reply. -/
structure Input where
  request : PostRequest
  drawn : Drawn
  countedAt : Int64

/-- `last_reply_at` of the root of a new reply. -/
def setLastReplyAt (db : PostDb) (w : PostWrite) (countedAt : Int64) : PostDb :=
  match w with
  | .insert _ post _ => { db with
      posts := post.rootPostId.elim db.posts fun r =>
        Assoc.modify r (fun root => { root with lastReplyAt := some countedAt.toInt }) db.posts }
  | .setMessage _ _ _ | .setDeleted _ _ => db

variable (codecs : Codecs) (isAlphanumeric : Char → Bool)

def step (db : PostDb) (input : Input) : Option PostDb :=
  match input.request.handle codecs isAlphanumeric db input.drawn with
  | .ok (w, _) => some (setLastReplyAt (db.write w) w input.countedAt)
  | .error _ => some db

def replyTimes (db : PostDb) (r : Uuid) : List Int :=
  Assoc.views (fun _ post => if post.rootPostId = some r then some post.createdAt else none) db.posts

def IsLiveRoot (post : Post) : Prop := post.deletedAt = none ∧ post.rootPostId = none

structure Counted (db : PostDb) (r : Uuid) (root : Post) : Prop where
  count : root.replyCount = (db.replyKeys r).length
  last : 0 < root.replyCount → ∃ t ∈ replyTimes db r, root.lastReplyAt = some t

def Counts (db : PostDb) : Prop :=
  ∀ r root, db.posts.lookup r = some root → IsLiveRoot root → Counted db r root

/-- `posts.root_post_id` references `posts`. -/
def RootsExist (db : PostDb) : Prop :=
  ∀ id post, db.posts.lookup id = some post → ∀ r, post.rootPostId = some r → r ∈ db.posts

/-- An accepted reply to a root that is not deleted is counted at the time when it, or another reply to the root, was
created; and no accepted request deletes a live reply to such a root. -/
def Keeps (db : PostDb) (input : Input) : Prop :=
  input.request.Accepted codecs db input.drawn → ∀ action, input.request.action codecs = some action →
    match action with
    | .create _ rootPostId _ => ∀ r, rootPostId = some r → ∀ root, db.posts.lookup r = some root → IsLiveRoot root →
      input.countedAt.toInt ∈ input.drawn.now.toInt :: replyTimes db r
    | .edit _ _ => True
    | .delete id => ∀ post, db.posts.lookup id = some post → post.deletedAt = none → ∀ r, post.rootPostId = some r →
      ∀ root, db.posts.lookup r = some root → ¬ IsLiveRoot root

variable {codecs isAlphanumeric} {db : PostDb} {id : Uuid} {new : Post} {props : Json} {countedAt : Int64}

def posted (db : PostDb) (id : Uuid) (new : Post) (props : Json) (countedAt : Int64) : PostDb :=
  setLastReplyAt (db.write (.insert id new props)) (.insert id new props) countedAt

def countReply (countedAt : Int64) (root : Post) : Post :=
  { root with replyCount := root.replyCount + 1, lastReplyAt := some countedAt.toInt }

theorem lookup_posted (hroot : ∀ r, new.rootPostId = some r → r ≠ id) (k : Uuid) :
    (posted db id new props countedAt).posts.lookup k =
      if k = id then some { new with props := props }
      else if new.rootPostId = some k then (db.posts.lookup k).map (countReply countedAt) else db.posts.lookup k := by
  unfold posted setLastReplyAt PostDb.write
  dsimp only
  generalize hrow : { new with props := props } = row
  cases hr : new.rootPostId with
  | none =>
    rw [Option.elim_none, Option.elim_none, Assoc.lookup_insert_eq]
    simp
  | some r =>
    have hne := hroot r hr
    rw [Option.elim_some, Option.elim_some, Assoc.lookup_modify, Assoc.lookup_modify, if_pos rfl, Assoc.lookup_modify, Assoc.lookup_insert_eq,
      Assoc.lookup_insert_eq, if_neg hne]
    by_cases hk : k = r
    · subst hk
      rw [if_pos rfl, if_neg hne, if_pos rfl, Option.map_map]
      rfl
    · rw [if_neg hk, if_neg hk, if_neg fun h => hk (Option.some.inj h).symm]

theorem views_same {ω : Type} {g : Uuid → Post → Option ω} {posts : Assoc Uuid Post} {r : Uuid} {f : Post → Post}
    (hg : ∀ k p p', PostDb.SameRow p p' → g k p' = g k p) (hf : ∀ p, PostDb.SameRow p (f p)) :
    (Assoc.views g (Assoc.modify r f posts)).Perm (Assoc.views g posts) :=
  Assoc.views_modify_perm fun p _ => hg r p (f p) (hf p)

theorem views_posted (new : Post) (props : Json) (countedAt : Int64) {ω : Type} {g : Uuid → Post → Option ω}
    (hfresh : id ∉ db.posts) (hg : ∀ k p p', PostDb.SameRow p p' → g k p' = g k p) :
    (Assoc.views g (posted db id new props countedAt).posts).Perm ((g id new).toList ++ Assoc.views g db.posts) := by
  have hinsert : Assoc.views g (db.posts.insert id { new with props := props }) =
      (g id new).toList ++ Assoc.views g db.posts := by
    rw [Assoc.views_insert_new hfresh, hg id new { new with props := props } ⟨rfl, rfl, rfl, rfl, rfl⟩]
  rw [← hinsert]
  unfold posted setLastReplyAt PostDb.write
  dsimp only
  generalize { new with props := props } = row
  cases new.rootPostId with
  | none => exact List.Perm.refl _
  | some r =>
    rw [Option.elim_some, Option.elim_some]
    refine (views_same hg ?_).trans (views_same hg ?_)
    · exact fun _ => ⟨rfl, rfl, rfl, rfl, rfl⟩
    · exact fun _ => ⟨rfl, rfl, rfl, rfl, rfl⟩

theorem replyKeys_posted (hfresh : id ∉ db.posts) (hlive : new.deletedAt = none) (r : Uuid) :
    ((posted db id new props countedAt).replyKeys r).length =
      (db.replyKeys r).length + if new.rootPostId = some r then 1 else 0 := by
  have hviews := views_posted new props countedAt hfresh
    (g := fun id post => if post.rootPostId = some r ∧ post.deletedAt = none then some (id, post.createdAt) else none)
    fun k p p' h => by rw [h.rootPostId, h.deletedAt, h.createdAt]
  unfold PostDb.replyKeys
  rw [hviews.length_eq, List.length_append, Nat.add_comm]
  congr 1
  by_cases hr : new.rootPostId = some r
  · simp [hr, hlive]
  · simp [hr]

theorem replyTimes_posted (hfresh : id ∉ db.posts) (r : Uuid) :
    (replyTimes (posted db id new props countedAt) r).Perm
      ((if new.rootPostId = some r then [new.createdAt] else []) ++ replyTimes db r) := by
  have hviews := views_posted new props countedAt hfresh
    (g := fun _ post => if post.rootPostId = some r then some post.createdAt else none)
    fun k p p' h => by rw [h.rootPostId, h.createdAt]
  refine hviews.trans ?_
  by_cases hr : new.rootPostId = some r
  · simp [hr, replyTimes]
  · simp [hr, replyTimes]

variable {post : Post} {t : Int}

theorem lookup_deleted (k : Uuid) : (db.write (.setDeleted id t)).posts.lookup k =
    if k = id then (db.posts.lookup id).map (fun post => { post with deletedAt := some t }) else db.posts.lookup k :=
  Assoc.lookup_modify _

theorem replyKeys_deleted (h : db.posts.lookup id = some post) (r : Uuid) :
    ((db.write (.setDeleted id t)).replyKeys r).length + 
      (if post.rootPostId = some r ∧ post.deletedAt = none then 1 else 0) = (db.replyKeys r).length := by
  have hlen := Assoc.length_views_modify (f := fun post => { post with deletedAt := some t }) h
    (g := fun id post => if post.rootPostId = some r ∧ post.deletedAt = none then some (id, post.createdAt) else none)
  have hnone : ¬ (post.rootPostId = some r ∧ some t = none) := fun hn => nomatch hn.2
  rw [if_neg hnone] at hlen
  by_cases hr : post.rootPostId = some r ∧ post.deletedAt = none
  · rw [if_pos hr] at hlen ⊢
    exact hlen
  · rw [if_neg hr] at hlen ⊢
    exact hlen

theorem replyTimes_deleted (r : Uuid) : (replyTimes (db.write (.setDeleted id t)) r).Perm (replyTimes db r) :=
  Assoc.views_modify_perm fun _ _ => rfl

variable {input : Input} {db' : PostDb}

theorem step_cases (h : step codecs isAlphanumeric db input = some db') :
    ¬ input.request.Accepted codecs db input.drawn ∧ db' = db ∨
    input.request.Accepted codecs db input.drawn ∧ ∃ action, input.request.action codecs = some action ∧
      match action with
      | .create channelId rootPostId _ => ∃ userId create props,
        input.drawn.id ∉ db.posts ∧ (∀ r, rootPostId = some r → r ∈ db.posts) ∧ create.rootPostId = rootPostId ∧
          db' = posted db input.drawn.id (db.newPost userId channelId create input.drawn) props input.countedAt
      | .edit id message => db' = db.write (.setMessage id message input.drawn.now.toInt)
      | .delete id => ∃ post, db.posts.lookup id = some post ∧
        db' = db.write (.setDeleted id input.drawn.now.toInt) := by
  unfold step at h
  split at h
  · next w envs hw =>
    have haccepted : input.request.Accepted codecs db input.drawn := PostRequest.handle_ok_iff.1 ⟨_, hw⟩
    obtain ⟨action, haction, heffect⟩ := PostRequest.handle_effect hw
    refine .inr ⟨haccepted, action, haction, ?_⟩
    obtain rfl := Option.some.inj h
    cases action with
    | create channelId rootPostId clientMsgId =>
      obtain ⟨hfresh, hroot, userId, create, user, files, props, hr, rfl, -⟩ := heffect
      refine ⟨userId, create, props, hfresh, fun r hrr => ?_, hr, rfl⟩
      obtain ⟨root, hlookup, -⟩ := hroot r hrr
      exact AList.lookup_isSome.1 (by rw [hlookup]; rfl)
    | edit id message =>
      obtain ⟨post, data, hpost, rfl, -⟩ := heffect
      rfl
    | delete id =>
      obtain ⟨post, data, hpost, rfl, -⟩ := heffect
      exact ⟨post, hpost, rfl⟩
  · next e he =>
    refine .inl ⟨fun haccepted => ?_, (Option.some.inj h).symm⟩
    obtain ⟨res, hres⟩ : ∃ res, input.request.handle codecs isAlphanumeric db input.drawn = .ok res :=
      PostRequest.handle_ok_iff.2 haccepted
    rw [he] at hres
    cases hres

theorem replyKeys_of_fresh (hdb : RootsExist db) (hfresh : id ∉ db.posts) : db.replyKeys id = [] := by
  refine List.eq_nil_iff_forall_not_mem.2 fun k hk => ?_
  obtain ⟨reply, hreply, hr, -⟩ := PostDb.mem_replyKeys.1 hk
  exact hfresh (hdb _ _ hreply _ hr)

theorem counts_posted_iff (hdb : RootsExist db) (h : Counts db) (hfresh : id ∉ db.posts)
    (hroots : ∀ r, new.rootPostId = some r → r ∈ db.posts) (hlive : new.deletedAt = none)
    (hzero : new.replyCount = 0) :
    Counts (posted db id new props countedAt) ↔
      ∀ r, new.rootPostId = some r → ∀ root, db.posts.lookup r = some root → IsLiveRoot root →
        countedAt.toInt ∈ new.createdAt :: replyTimes db r := by
  have hne : ∀ r, new.rootPostId = some r → r ≠ id := by
    rintro r hr rfl
    exact hfresh (hroots r hr)
  have htimes (r : Uuid) (t : Int) : t ∈ replyTimes (posted db id new props countedAt) r ↔
      t ∈ (if new.rootPostId = some r then [new.createdAt] else []) ++ replyTimes db r :=
    (replyTimes_posted hfresh r).mem_iff
  constructor
  · intro h' r hr root hroot hliveRoot
    have hlookup := @lookup_posted db id new props countedAt hne r
    rw [if_neg (hne r hr), if_pos hr, hroot, Option.map_some] at hlookup
    obtain ⟨hcount, hlast⟩ := h' r _ hlookup hliveRoot
    have hpos : 0 < (countReply countedAt root).replyCount := by
      have hold := (h r root hroot hliveRoot).count
      show 0 < root.replyCount + 1
      omega
    obtain ⟨t, ht, heq⟩ := hlast hpos
    rw [htimes, if_pos hr, List.singleton_append] at ht
    rwa [Option.some.inj heq]
  · intro hcounted k root' hlookup hliveRoot
    rw [lookup_posted hne] at hlookup
    have hkeys := @replyKeys_posted db id new props countedAt hfresh hlive k
    by_cases hk : k = id
    · subst hk
      rw [if_pos rfl] at hlookup
      obtain rfl := Option.some.inj hlookup
      have hroot : ¬ new.rootPostId = some k := fun hr => hne k hr rfl
      rw [replyKeys_of_fresh hdb hfresh, if_neg hroot] at hkeys
      refine ⟨by rw [hkeys]; exact hzero, fun hpos => ?_⟩
      exact absurd hpos (by rw [hzero]; exact lt_irrefl _)
    · rw [if_neg hk] at hlookup
      by_cases hr : new.rootPostId = some k
      · rw [if_pos hr, Option.map_eq_some_iff] at hlookup
        obtain ⟨root, hroot, rfl⟩ := hlookup
        have hold := (h k root hroot hliveRoot).count
        refine ⟨?_, fun _ => ⟨countedAt.toInt, ?_, rfl⟩⟩
        · show root.replyCount + 1 = _
          rw [hkeys, if_pos hr, hold]
          rfl
        · rw [htimes, if_pos hr]
          exact hcounted k hr root hroot hliveRoot
      · rw [if_neg hr] at hlookup hkeys
        obtain ⟨hcount, hlast⟩ := h k root' hlookup hliveRoot
        refine ⟨by rw [hkeys]; exact hcount, fun hpos => ?_⟩
        obtain ⟨t, ht, heq⟩ := hlast hpos
        exact ⟨t, (htimes k t).2 (List.mem_append_right _ ht), heq⟩

theorem counts_deleted_iff (h : Counts db) (hpost : db.posts.lookup id = some post) :
    Counts (db.write (.setDeleted id t)) ↔ (post.deletedAt = none → ∀ r, post.rootPostId = some r →
      ∀ root, db.posts.lookup r = some root → ¬ IsLiveRoot root) := by
  constructor
  · intro h' hlive r hr root hroot hliveRoot
    have hne : r ≠ id := by
      rintro rfl
      obtain rfl := Option.some.inj (hpost.symm.trans hroot)
      rw [hliveRoot.2] at hr
      cases hr
    have hlookup := @lookup_deleted db id t r
    rw [if_neg hne, hroot] at hlookup
    have hcount := (h' r root hlookup hliveRoot).count
    have hold := (h r root hroot hliveRoot).count
    have hkeys := replyKeys_deleted (t := t) hpost r
    rw [if_pos ⟨hr, hlive⟩] at hkeys
    omega
  · intro hspared k root hlookup hliveRoot
    rw [lookup_deleted] at hlookup
    split at hlookup
    · obtain ⟨_, -, rfl⟩ := Option.map_eq_some_iff.1 hlookup
      exact absurd hliveRoot.1 (by simp)
    · obtain ⟨hcount, hlast⟩ := h k root hlookup hliveRoot
      have hkeys := replyKeys_deleted (t := t) hpost k
      rw [if_neg fun hr => hspared hr.2 k hr.1 root hlookup hliveRoot] at hkeys
      refine ⟨by rw [hcount, ← hkeys]; rfl, fun hpos => ?_⟩
      obtain ⟨time, htime, heq⟩ := hlast hpos
      exact ⟨time, (replyTimes_deleted k).mem_iff.2 htime, heq⟩

theorem counts_edited {message : String} (h : Counts db) : Counts (db.write (.setMessage id message t)) := by
  intro k root' hlookup hliveRoot
  have hlookup' : (db.write (.setMessage id message t)).posts.lookup k = if k = id then
      (db.posts.lookup id).map (fun post => { post with message, editedAt := some t }) else db.posts.lookup k :=
    Assoc.lookup_modify _
  have hkeys : ((db.write (.setMessage id message t)).replyKeys k).Perm (db.replyKeys k) :=
    Assoc.views_modify_perm fun _ _ => rfl
  have htimes : (replyTimes (db.write (.setMessage id message t)) k).Perm (replyTimes db k) :=
    Assoc.views_modify_perm fun _ _ => rfl
  obtain ⟨root, hroot, hcount, hlast, hliveRoot⟩ : ∃ root, db.posts.lookup k = some root ∧
      root'.replyCount = root.replyCount ∧ root'.lastReplyAt = root.lastReplyAt ∧ IsLiveRoot root := by
    rw [hlookup'] at hlookup
    split at hlookup
    · next hk =>
      subst hk
      obtain ⟨root, hroot, rfl⟩ := Option.map_eq_some_iff.1 hlookup
      exact ⟨root, hroot, rfl, rfl, hliveRoot⟩
    · exact ⟨root', hlookup, rfl, rfl, hliveRoot⟩
  obtain ⟨hold, holdLast⟩ := h k root hroot hliveRoot
  refine ⟨by rw [hcount, hold, hkeys.length_eq], fun hpos => ?_⟩
  obtain ⟨time, htime, heq⟩ := holdLast (hcount ▸ hpos)
  exact ⟨time, htimes.mem_iff.2 htime, hlast.trans heq⟩

/-! ### The roots stay -/

theorem mem_posted {k : Uuid} : k ∈ (posted db id new props countedAt).posts ↔ k = id ∨ k ∈ db.posts := by
  unfold posted setLastReplyAt PostDb.write
  dsimp only
  generalize { new with props := props } = row
  cases new.rootPostId with
  | none => exact AList.mem_insert _
  | some r =>
    rw [Option.elim_some, Option.elim_some, Assoc.mem_modify, Assoc.mem_modify]
    exact AList.mem_insert _

theorem RootsExist.posted (hdb : RootsExist db) (hfresh : id ∉ db.posts)
    (hroots : ∀ r, new.rootPostId = some r → r ∈ db.posts) :
    RootsExist (posted db id new props countedAt) := by
  have hne : ∀ r, new.rootPostId = some r → r ≠ id := by
    rintro r hr rfl
    exact hfresh (hroots r hr)
  intro k post hpost r hr
  rw [mem_posted]
  rw [lookup_posted hne] at hpost
  split at hpost
  · obtain rfl := Option.some.inj hpost
    exact .inr (hroots r hr)
  · split at hpost
    · obtain ⟨old, hold, rfl⟩ := Option.map_eq_some_iff.1 hpost
      exact .inr (hdb k old hold r hr)
    · exact .inr (hdb k post hpost r hr)

theorem RootsExist.modify {f : Post → Post} (hdb : RootsExist db) (hf : ∀ post, (f post).rootPostId = post.rootPostId) :
    RootsExist { db with posts := Assoc.modify id f db.posts } := by
  intro k post hpost r hr
  rw [Assoc.mem_modify]
  rw [Assoc.lookup_modify] at hpost
  split at hpost
  · next hk =>
    subst hk
    obtain ⟨old, hold, rfl⟩ := Option.map_eq_some_iff.1 hpost
    exact hdb k old hold r ((hf old).symm.trans hr)
  · exact hdb k post hpost r hr

theorem RootsExist.step (hdb : RootsExist db) (h : step codecs isAlphanumeric db input = some db') :
    RootsExist db' := by
  rcases step_cases h with ⟨-, rfl⟩ | ⟨-, action, -, h⟩
  · exact hdb
  · cases action with
    | create channelId rootPostId clientMsgId =>
      obtain ⟨userId, create, props, hfresh, hroots, rfl, rfl⟩ := h
      exact hdb.posted hfresh hroots
    | edit id message =>
      subst h
      exact hdb.modify fun _ => rfl
    | delete id =>
      obtain ⟨post, -, rfl⟩ := h
      exact hdb.modify fun _ => rfl

/-! ### Runs -/

theorem counts_step_iff (hdb : RootsExist db) (hc : Counts db) (h : step codecs isAlphanumeric db input = some db') :
    Counts db' ↔ Keeps codecs db input := by
  unfold Keeps
  rcases step_cases h with ⟨hno, rfl⟩ | ⟨haccepted, action, haction, h⟩
  · exact ⟨fun _ haccepted => absurd haccepted hno, fun _ => hc⟩
  rw [forall_prop_of_true haccepted]
  have hkeeps (P : PostAction → Prop) : (∀ action', input.request.action codecs = some action' → P action') ↔ P action := by
    rw [haction]
    exact ⟨fun hp => hp action rfl, fun hp action' ha => Option.some.inj ha ▸ hp⟩
  rw [hkeeps]
  cases action with
  | create channelId rootPostId clientMsgId =>
    obtain ⟨userId, create, props, hfresh, hroots, rfl, rfl⟩ := h
    exact counts_posted_iff hdb hc hfresh hroots rfl rfl
  | edit id message =>
    subst h
    exact ⟨fun _ => trivial, fun _ => counts_edited hc⟩
  | delete id =>
    obtain ⟨post, hpost, rfl⟩ := h
    rw [counts_deleted_iff hc hpost]
    constructor
    · intro hspared post' hpost'
      obtain rfl := Option.some.inj (hpost.symm.trans hpost')
      exact hspared
    · exact fun hspared => hspared post hpost

theorem exists_step (db : PostDb) (input : Input) :
    ∃ db', step codecs isAlphanumeric db input = some db' := by
  unfold step
  split
  · exact ⟨_, rfl⟩
  · exact ⟨_, rfl⟩

/-- Where the numbers are right at the start, they stay right throughout a run exactly if every reply is counted at
the time of a reply and no reply to a live root is deleted. -/
theorem counts_iff_keeps (codecs : Codecs) (isAlphanumeric : Char → Bool) (db : PostDb) (hdb : RootsExist db)
    (h : Counts db) (inputs : List Input) :
    Run.AllStates (step codecs isAlphanumeric) Counts db inputs ↔
      Run.AllSteps (step codecs isAlphanumeric) (Keeps codecs) db inputs := by
  obtain ⟨last, hrun⟩ : ∃ last, Run.exec (step codecs isAlphanumeric) db inputs = some last :=
    Run.exists_exec_of_enabled exists_step db inputs
  exact Run.allStates_iff_allSteps (I := RootsExist) (fun _ _ _ hI hs => hI.step hs)
    (fun _ _ _ hI hQ hs => counts_step_iff hI hQ hs) hdb h hrun

/-- User `2` answers the post `7`, and the answer is counted when it is created. -/
def answer : Input := ⟨.createPost 2 5 ⟨"b", some 7, none, [], none⟩, ⟨8, 1, 1⟩, 1⟩

theorem onePost_rootsExist : RootsExist ThreadRun.onePost := by
  intro id post h r hr
  rcases Assoc.lookup_insert_cases h with ⟨-, rfl⟩ | ⟨-, h⟩
  · cases hr
  · cases h

theorem onePost_counts : Counts ThreadRun.onePost := by
  intro r root h _
  rcases Assoc.lookup_insert_cases h with ⟨rfl, rfl⟩ | ⟨-, h⟩
  · exact ⟨rfl, fun hpos => absurd hpos (by decide)⟩
  · cases h

/-- The post `7` gets an answer and is deleted. -/
theorem root_deleted_counts : Run.AllStates (step ThreadRun.plainCodecs Char.isAlphanum) Counts ThreadRun.onePost
    [answer, ⟨.deletePost ⟨2, false⟩ 7, ⟨0, 2, 2⟩, 2⟩] := by
  refine (counts_iff_keeps _ _ _ onePost_rootsExist onePost_counts _).2 ?_
  refine Run.allSteps_cons.2 ⟨fun _ action haction => ?_, fun db hdb => ?_⟩
  · obtain rfl := Option.some.inj haction
    exact fun r _ root _ _ => List.mem_cons_self
  · obtain rfl := Option.some.inj hdb
    refine Run.allSteps_cons.2 ⟨fun _ action haction => ?_, fun _ _ => Run.allSteps_nil⟩
    obtain rfl := Option.some.inj haction
    intro post hpost _ r hr
    obtain rfl := Option.some.inj hpost
    cases hr

/-- The answer is deleted, and the post `7` still counts it. -/
theorem reply_deleted_counted : RootsExist ThreadRun.onePost ∧ Counts ThreadRun.onePost ∧
    ¬ Run.AllStates (step ThreadRun.plainCodecs Char.isAlphanum) Counts ThreadRun.onePost
      [answer, ⟨.deletePost ⟨2, false⟩ 8, ⟨0, 2, 2⟩, 2⟩] := by
  refine ⟨onePost_rootsExist, onePost_counts, fun h => ?_⟩
  have hlast := h [answer, ⟨.deletePost ⟨2, false⟩ 8, ⟨0, 2, 2⟩, 2⟩] [] rfl _ rfl 7 _ rfl ⟨rfl, rfl⟩
  exact absurd hlast.count (by decide)

end ReplyCounts
end Rustchat
