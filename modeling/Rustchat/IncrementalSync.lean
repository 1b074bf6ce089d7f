import Rustchat.ChannelPages
import Rustchat.ReplyCounts

/-!
# Incremental sync of a channel (`get_posts` with `since`)

A client that has the live posts of a channel at some time asks for what was created or edited since, and
merges the answer. Neither endpoint looks at the time a post was deleted, and neither sees the replies that a
post counts. `IncrementalSync.faithful_iff` says which histories it survives.
-/

namespace Rustchat
namespace IncrementalSync
open ChannelPages

/-- Puts in the place of each name what came for it, or takes it out. -/
def merge {ι α : Type} [DecidableEq ι] (copy : ι → Option α) (changes : List (ι × Option α)) : ι → Option α :=
  changes.foldl (fun copy change => Function.update copy change.1 change.2) copy

/-- The changes in an answer of `services::posts::get_posts`. -/
def changes (posts : List PostResponse) : List (Uuid × Option PostResponse) :=
  posts.map fun p => (p.id, if p.deletedAt.isSome then none else some p)

def changesV4 (list : PostList) : List (String × Option MmPost) :=
  list.order.filterMap fun id => (list.posts.lookup id).map fun p => (id, if p.deleteAt ≠ 0 then none else some p)

/-- The copy has the live posts of the channel, under their names and as they are shown. -/
def Faithful {ι α : Type} (copy : ι → Option α) (name : Uuid → ι) (shown : Uuid × Post → α) (db : PostDb)
    (channelId : Uuid) : Prop :=
  ∀ i a, copy i = some a ↔ ∃ row ∈ liveRows db channelId, name row.1 = i ∧ shown row = a

section Merge
variable {ι α : Type} [DecidableEq ι] {copy : ι → Option α} {cs : List (ι × Option α)} {i : ι} {o : Option α}

theorem merge_of_not_mem (h : i ∉ cs.map Prod.fst) : merge copy cs i = copy i := by
  induction cs generalizing copy with
  | nil => rfl
  | cons c cs ih =>
    obtain ⟨hne, hrest⟩ := List.ne_and_not_mem_of_not_mem_cons h
    exact (ih hrest).trans (Function.update_of_ne hne ..)

theorem merge_of_mem (hnodup : (cs.map Prod.fst).Nodup) (h : (i, o) ∈ cs) : merge copy cs i = o := by
  induction cs generalizing copy with
  | nil => cases h
  | cons c cs ih =>
    obtain ⟨hnot, hrest⟩ := List.nodup_cons.1 hnodup
    rcases List.mem_cons.1 h with rfl | h
    · exact (merge_of_not_mem hnot).trans (Function.update_self ..)
    · exact ih hrest h

end Merge

/-- A merged answer is faithful exactly if it has every post of the copy that is no longer live or no longer as shown. -/
theorem faithful_merge_iff {ι α : Type} [DecidableEq ι] {copy : ι → Option α} {name : Uuid → ι}
    {shown : Uuid × Post → α} {db db' : PostDb} {channelId : Uuid} (hname : Function.Injective name)
    (h : Faithful copy name shown db channelId) {rows : List (Uuid × Post)}
    (hrows : ∀ row ∈ rows, db'.posts.lookup row.1 = some row.2 ∧ row.2.channelId = channelId)
    (hnodup : (rows.map Prod.fst).Nodup)
    (hkept : ∀ row ∈ liveRows db' channelId, row ∉ rows → ∃ post, (row.1, post) ∈ liveRows db channelId)
    (hstays : ∀ row ∈ liveRows db channelId, ∃ post', db'.posts.lookup row.1 = some post' ∧ post'.channelId = channelId) :
    Faithful (merge copy (rows.map fun row => (name row.1, if row.2.deletedAt.isSome then none else some (shown row))))
        name shown db' channelId ↔
      ∀ row ∈ liveRows db channelId, ∀ post', db'.posts.lookup row.1 = some post' →
        (row.1, post') ∈ rows ∨ post'.deletedAt = none ∧ shown (row.1, post') = shown row := by
  have hnames : ((rows.map fun row => (name row.1, if row.2.deletedAt.isSome then none else some (shown row))).map
      Prod.fst).Nodup := by
    have hmap := hnodup.map hname
    rwa [List.map_map] at hmap ⊢
  -- what the merged copy has under a name
  have hin (row : Uuid × Post) (hrow : row ∈ rows) :
      merge copy (rows.map fun row => (name row.1, if row.2.deletedAt.isSome then none else some (shown row))) (name row.1) =
        if row.2.deletedAt.isSome then none else some (shown row) :=
    merge_of_mem hnames (List.mem_map.2 ⟨row, hrow, rfl⟩)
  have hout (i : ι) (hi : ∀ row ∈ rows, name row.1 ≠ i) :
      merge copy (rows.map fun row => (name row.1, if row.2.deletedAt.isSome then none else some (shown row))) i = copy i := by
    refine merge_of_not_mem fun hmem => ?_
    rw [List.map_map] at hmem
    obtain ⟨row, hrow, hri⟩ := List.mem_map.1 hmem
    exact hi row hrow hri
  constructor
  · intro hf row hrow post' hpost'
    by_cases hsel : ∃ r ∈ rows, r.1 = row.1
    · obtain ⟨r, hr, hrid⟩ := hsel
      have hlookup := (hrows r hr).1
      rw [hrid, hpost'] at hlookup
      have heq : (row.1, post') = r := Prod.ext hrid.symm (Option.some.inj hlookup)
      exact .inl (heq ▸ hr)
    · right
      have hcopy := hout (name row.1) fun r hr hri => hsel ⟨r, hr, hname hri⟩
      rw [(h _ _).2 ⟨row, hrow, rfl, rfl⟩] at hcopy
      obtain ⟨live, hlive, hid, hshown⟩ := (hf _ _).1 hcopy
      obtain ⟨hlookup, -, hnone⟩ := mem_liveRows.1 hlive
      rw [hname hid, hpost'] at hlookup
      have heq : (row.1, post') = live := Prod.ext (hname hid).symm (Option.some.inj hlookup)
      exact ⟨by rw [← heq] at hnone; exact hnone, by rw [heq, hshown]⟩
  · intro hc i a
    by_cases hsel : ∃ r ∈ rows, name r.1 = i
    · obtain ⟨r, hr, rfl⟩ := hsel
      obtain ⟨hlookup, hchannel⟩ := hrows r hr
      rw [hin r hr]
      constructor
      · intro ha
        split at ha
        · cases ha
        · next hd => exact ⟨r, mem_liveRows.2 ⟨hlookup, hchannel, by simpa using hd⟩, rfl, Option.some.inj ha⟩
      · rintro ⟨live, hlive, hid, rfl⟩
        obtain ⟨hlookup', -, hnone⟩ := mem_liveRows.1 hlive
        rw [hname hid, hlookup] at hlookup'
        have heq : r = live := Prod.ext (hname hid).symm (Option.some.inj hlookup')
        rw [heq, hnone]; rfl
    · have hnot : ∀ r ∈ rows, name r.1 ≠ i := fun r hr hri => hsel ⟨r, hr, hri⟩
      rw [hout i hnot, h]
      constructor
      · rintro ⟨row, hrow, rfl, rfl⟩
        obtain ⟨post', hpost', hchannel⟩ := hstays row hrow
        rcases hc row hrow post' hpost' with hmem | ⟨hnone, hshown⟩
        · exact absurd rfl (hnot (row.1, post') hmem)
        · exact ⟨(row.1, post'), mem_liveRows.2 ⟨hpost', hchannel, hnone⟩, rfl, hshown⟩
      · rintro ⟨live, hlive, rfl, rfl⟩
        obtain ⟨post, hpost⟩ := hkept live hlive fun hmem => hnot live hmem rfl
        refine ⟨_, hpost, rfl, ?_⟩
        rcases hc _ hpost live.2 (mem_liveRows.1 hlive).1 with hmem | ⟨-, hshown⟩
        · exact absurd rfl (hnot _ hmem)
        · exact hshown.symm

section History

/-- Created or edited at `t` or later. -/
def Recent (t : Int) (post : Post) : Prop := t ≤ post.createdAt ∨ post.editedAt.any (t ≤ ·) = true

instance (t : Int) (post : Post) : Decidable (Recent t post) := inferInstanceAs (Decidable (_ ∨ _))

variable {t : Int} {post post' post'' : Post}

/-- What a post may turn into from `t` on. -/
structure Later (t : Int) (post post' : Post) : Prop where
  channelId : post'.channelId = post.channelId
  createdAt : post'.createdAt = post.createdAt
  deleted : post'.deletedAt = none → post.deletedAt = none
  replies : post.replyCount ≤ post'.replyCount
  unanswered : post'.replyCount = post.replyCount → post'.lastReplyAt = post.lastReplyAt
  unedited : ¬ Recent t post' → post' =
    { post with deletedAt := post'.deletedAt, replyCount := post'.replyCount, lastReplyAt := post'.lastReplyAt }

theorem Later.refl (t : Int) (post : Post) : Later t post post :=
  ⟨rfl, rfl, id, le_rfl, fun _ => rfl, fun _ => rfl⟩

theorem Later.trans (h : Later t post post') (h' : Later t post' post'') : Later t post post'' where
  channelId := h'.channelId.trans h.channelId
  createdAt := h'.createdAt.trans h.createdAt
  deleted hd := h.deleted (h'.deleted hd)
  replies := h.replies.trans h'.replies
  unanswered hr := by
    have hle := h.replies
    have hle' := h'.replies
    exact (h'.unanswered (by omega)).trans (h.unanswered (by omega))
  unedited hr := by
    have heq := h'.unedited hr
    -- an edit of the first part would still show
    have hr' : ¬ Recent t post' := by rw [heq] at hr; exact hr
    rw [heq, h.unedited hr']

/-- What the tables may turn into from `t` on. -/
structure Since (t : Int) (db db' : PostDb) : Prop where
  users : db'.users = db.users
  files : db'.files = db.files
  new : ∀ id post', db'.posts.lookup id = some post' → db.posts.lookup id = none → t ≤ post'.createdAt
  old : ∀ id post, db.posts.lookup id = some post →
    ∃ post', db'.posts.lookup id = some post' ∧ Later t post post'

variable {db db' db'' : PostDb}

theorem Since.refl (t : Int) (db : PostDb) : Since t db db :=
  ⟨rfl, rfl, fun _ _ h hn => (nomatch h.symm.trans hn), fun _ post h => ⟨post, h, .refl t post⟩⟩

theorem Since.trans (h : Since t db db') (h' : Since t db' db'') : Since t db db'' where
  users := h'.users.trans h.users
  files := h'.files.trans h.files
  new id post'' hpost hnone := by
    cases hmid : db'.posts.lookup id with
    | none => exact h'.new id post'' hpost hmid
    | some post' =>
      obtain ⟨last, hlast, hlater⟩ := h'.old id post' hmid
      obtain rfl := Option.some.inj (hpost.symm.trans hlast)
      exact hlater.createdAt ▸ h.new id post' hmid hnone
  old id post hpost := by
    obtain ⟨post', hpost', hlater⟩ := h.old id post hpost
    obtain ⟨post'', hpost'', hlater'⟩ := h'.old id post' hpost'
    exact ⟨post'', hpost'', hlater.trans hlater'⟩

variable {codecs : Codecs} {isAlphanumeric : Char → Bool} {input : ReplyCounts.Input} {id : Uuid}

theorem since_modify {f : Post → Post} (hf : ∀ post, Later t post (f post)) (hdb : db' = { db with posts := Assoc.modify id f db.posts }) :
    Since t db db' := by
  subst hdb
  refine ⟨rfl, rfl, fun k post' hpost hnone => ?_, fun k post hpost => ?_⟩
  · have hk : (Assoc.modify id f db.posts).lookup k = some post' := hpost
    rw [Assoc.lookup_modify] at hk
    split at hk
    · next heq => rw [← heq, hnone] at hk; cases hk
    · rw [hnone] at hk; cases hk
  · show ∃ post', (Assoc.modify id f db.posts).lookup k = some post' ∧ _
    rw [Assoc.lookup_modify]
    split
    · next heq => subst heq; exact ⟨f post, by rw [hpost]; rfl, hf post⟩
    · exact ⟨post, hpost, .refl t post⟩

theorem since_step (h : ReplyCounts.step codecs isAlphanumeric db input = some db') (ht : t ≤ input.drawn.now.toInt) :
    Since t db db' := by
  rcases ReplyCounts.step_cases h with ⟨-, rfl⟩ | ⟨-, action, -, heffect⟩
  · exact .refl t _
  cases action with
  | create channelId rootPostId clientMsgId =>
    obtain ⟨userId, create, props, hfresh, hroots, rfl, rfl⟩ := heffect
    have hne : ∀ r, (db.newPost userId channelId create input.drawn).rootPostId = some r →
      r ≠ input.drawn.id := by
      rintro r hr rfl
      exact hfresh (hroots _ hr)
    have hlookup := @ReplyCounts.lookup_posted db input.drawn.id _ props input.countedAt hne
    refine ⟨rfl, rfl, fun k post' hpost hnone => ?_, fun k post hpost => ?_⟩
    · rw [hlookup] at hpost
      split_ifs at hpost
      · rw [← Option.some.inj hpost]; exact ht
      · rw [hnone] at hpost; cases hpost
      · rw [hnone] at hpost; cases hpost
    · have hk : k ≠ input.drawn.id := by
        rintro rfl
        exact hfresh (AList.lookup_isSome.1 (by rw [hpost]; rfl))
      rw [hlookup, if_neg hk]
      split_ifs
      · refine ⟨ReplyCounts.countReply input.countedAt post, by rw [hpost]; rfl,
          ⟨rfl, rfl, fun hd => hd, Int.le_add_one (le_refl _), fun hr => ?_, fun _ => rfl⟩⟩
        have hcount : post.replyCount + 1 = post.replyCount := hr
        omega
      · exact ⟨post, hpost, .refl t post⟩
  | edit id message =>
    have hdb : db' = { db with
      posts := Assoc.modify id (fun post => { post with message, editedAt := some input.drawn.now.toInt }) db.posts } := heffect
    refine since_modify (fun post => ?_) hdb
    refine ⟨rfl, rfl, fun hd => hd, le_refl _, fun _ => rfl, fun hr => ?_⟩
    exact absurd (.inr (decide_eq_true ht)) hr
  | delete id =>
    obtain ⟨post, -, heq⟩ := heffect
    have hdb : db' = { db with
      posts := Assoc.modify id (fun post => { post with deletedAt := some input.drawn.now.toInt }) db.posts } := heq
    refine since_modify (fun post => ?_) hdb
    exact ⟨rfl, rfl, fun hd => (nomatch hd), le_refl _, fun _ => rfl, fun _ => rfl⟩

theorem since_run {inputs : List ReplyCounts.Input} (h : Run.exec (ReplyCounts.step codecs isAlphanumeric) db inputs = some db')
    (ht : ∀ input ∈ inputs, t ≤ input.drawn.now.toInt) : Since t db db' := by
  induction inputs generalizing db with
  | nil =>
    obtain rfl := Option.some.inj h
    exact .refl t _
  | cons input inputs ih =>
    obtain ⟨mid, hmid, hrest⟩ := Run.exec_cons_eq_some.1 h
    exact (since_step hmid (ht input List.mem_cons_self)).trans (ih hrest fun i hi => ht i (List.mem_cons_of_mem _ hi))

end History

section Answers
variable {tie : Uuid ↪ ℕ} {fromMillis : Int → Option Int} {utcNow t : Int} {codecs : Codecs} {db db' : PostDb}
  {channelId : Uuid} {deletedToo : Bool}

/-- The rows that the query with `since` finds. -/
def sinceRows (db : PostDb) (channelId : Uuid) (t : Int) (deletedToo : Bool) : List (Uuid × Post) :=
  Assoc.views (fun id post =>
    if post.channelId = channelId ∧ (deletedToo = true ∨ post.deletedAt = none) ∧
      (t ≤ post.createdAt ∨ post.editedAt.any (t ≤ ·)) then some (id, post) else none) db.posts

/-- The posts of the channel that were created, edited or deleted at `t` or later. -/
def changedSince (db : PostDb) (channelId : Uuid) (t : Int) : List (Uuid × Post) :=
  Assoc.views (fun id post =>
    if post.channelId = channelId ∧
      (Recent t post ∨ post.deletedAt.any (t ≤ ·) = true) then some (id, post) else none) db.posts

theorem mem_sinceRows {row : Uuid × Post} : row ∈ sinceRows db channelId t deletedToo ↔
    db.posts.lookup row.1 = some row.2 ∧ row.2.channelId = channelId ∧
      (deletedToo = true ∨ row.2.deletedAt = none) ∧ Recent t row.2 := by
  unfold sinceRows
  rw [Assoc.mem_views]
  constructor
  · rintro ⟨id, post, hpost, hrow⟩
    obtain ⟨hsel, hrow⟩ := Option.ite_none_right_eq_some.1 hrow
    rw [← Option.some.inj hrow]
    exact ⟨hpost, hsel⟩
  · rintro ⟨hpost, hsel⟩
    exact ⟨row.1, row.2, hpost, if_pos hsel⟩

theorem mem_changedSince {row : Uuid × Post} (hpost : db.posts.lookup row.1 = some row.2)
    (hchannel : row.2.channelId = channelId) (hrecent : Recent t row.2) : row ∈ changedSince db channelId t :=
  Assoc.mem_views.2 ⟨row.1, row.2, hpost, if_pos ⟨hchannel, .inl hrecent⟩⟩

theorem nodup_sinceRows : ((sinceRows db channelId t deletedToo).map Prod.fst).Nodup := by
  refine Assoc.nodup_map_views fun id post row hrow => ?_
  obtain ⟨-, hrow⟩ := Option.ite_none_right_eq_some.1 hrow
  rw [← Option.some.inj hrow]

theorem length_sinceRows_le :
    (sinceRows db channelId t deletedToo).length ≤ (changedSince db channelId t).length := by
  refine (List.subperm_of_subset (nodup_sinceRows.of_map _) fun row hrow => ?_).length_le
  obtain ⟨hpost, hchannel, -, hrecent⟩ := mem_sinceRows.1 hrow
  exact mem_changedSince hpost hchannel hrecent

theorem select_since {perPage : ℕ} (h : (changedSince db channelId t).length ≤ perPage) :
    select tie db channelId perPage (.since t deletedToo) =
      .ok (oldestFirst tie (sinceRows db channelId t deletedToo)) := by
  have hlen : (oldestFirst tie (sinceRows db channelId t deletedToo)).length ≤ perPage := by
    rw [oldestFirst, Page.orderBy_perm.length_eq]
    exact length_sinceRows_le.trans h
  exact congrArg Except.ok (List.take_of_length_le hlen)

theorem mem_oldestFirst {rows : List (Uuid × Post)} {row : Uuid × Post} :
    row ∈ oldestFirst tie rows ↔ row ∈ rows :=
  Page.orderBy_perm.mem_iff

theorem changes_listed (rows : List (Uuid × Post)) : changes (rows.map (listed db)) =
    rows.map fun row => (row.1, if row.2.deletedAt.isSome then none else some (listed db row)) :=
  List.map_map

theorem changesV4_postList {pagination : Pagination} {rows : List (Uuid × Post)} (hnodup : (rows.map Prod.fst).Nodup)
    (hlive : ∀ row ∈ rows, row.2.deletedAt = none) : changesV4 (postList pagination (rows.map (listed db))) =
      rows.map fun row => (encodeMmId row.1, if row.2.deletedAt.isSome then none else some (listed db row).toMm) := by
  unfold changesV4
  rw [order_postList, List.filterMap_map]
  refine (List.filterMap_congr fun row hrow => ?_).trans (congrFun List.filterMap_eq_map rows)
  have hzero : (listed db row).toMm.deleteAt = 0 := by
    show (row.2.deletedAt.map timestampMillis).getD 0 = 0
    rw [hlive row hrow]; rfl
  show ((postList pagination (rows.map (listed db))).posts.lookup (encodeMmId row.1)).map _ = _
  rw [lookup_postList hnodup hrow, Option.map_some, hzero, Function.comp_apply, hlive row hrow]
  rfl

end Answers

/-! ### Faithful answers -/

section Answered
variable {tie : Uuid ↪ ℕ} {fromMillis : Int → Option Int} {utcNow t : Int} {codecs : Codecs} {db db' : PostDb}
  {channelId : Uuid}

theorem listed_eq (h : Since t db db') : listed db' = listed db := by
  funext row
  unfold listed PostDb.filesOf
  rw [h.users, h.files]

theorem faithful_since_iff {ι α : Type} [DecidableEq ι] {copy : ι → Option α} {name : Uuid → ι} {shown : Uuid × Post → α}
    (hname : Function.Injective name) (hsince : Since t db db')
    (h : Faithful copy name shown db channelId) (deletedToo : Bool) :
    Faithful (merge copy ((oldestFirst tie (sinceRows db' channelId t deletedToo)).map fun row =>
        (name row.1, if row.2.deletedAt.isSome then none else some (shown row)))) name shown db' channelId ↔
      ∀ row ∈ liveRows db channelId, ∀ post', db'.posts.lookup row.1 = some post' →
        (deletedToo = true ∨ post'.deletedAt = none) ∧ Recent t post' ∨
          post'.deletedAt = none ∧ shown (row.1, post') = shown row := by
  have hrows : ∀ row ∈ oldestFirst tie (sinceRows db' channelId t deletedToo),
      db'.posts.lookup row.1 = some row.2 ∧ row.2.channelId = channelId := fun row hrow =>
    ⟨(mem_sinceRows.1 (mem_oldestFirst.1 hrow)).1, (mem_sinceRows.1 (mem_oldestFirst.1 hrow)).2.1⟩
  have hnodup : ((oldestFirst tie (sinceRows db' channelId t deletedToo)).map Prod.fst).Nodup :=
    (Page.orderBy_perm.map Prod.fst).nodup_iff.2 nodup_sinceRows
  have hstays : ∀ row ∈ liveRows db channelId, ∃ post', db'.posts.lookup row.1 = some post' ∧
    post'.channelId = channelId := by
    intro row hrow
    obtain ⟨hpost, hchannel, -⟩ := mem_liveRows.1 hrow
    obtain ⟨post', hpost', hlater⟩ := hsince.old _ _ hpost
    exact ⟨post', hpost', hlater.channelId.trans hchannel⟩
  have hkept : ∀ row ∈ liveRows db' channelId, row ∉ oldestFirst tie (sinceRows db' channelId t deletedToo) →
      ∃ post, (row.1, post) ∈ liveRows db channelId := by
    intro row hrow hnot
    obtain ⟨hpost', hchannel, hlive⟩ := mem_liveRows.1 hrow
    have hold : ¬ Recent t row.2 :=
      fun hr => hnot (mem_oldestFirst.2 (mem_sinceRows.2 ⟨hpost', hchannel, .inr hlive, hr⟩))
    cases hpost : db.posts.lookup row.1 with
    | none => exact absurd (.inl (hsince.new _ _ hpost' hpost)) hold
    | some post =>
      obtain ⟨last, hlast, hlater⟩ := hsince.old _ _ hpost
      obtain rfl := Option.some.inj (hpost'.symm.trans hlast)
      exact ⟨post, mem_liveRows.2 ⟨hpost, hlater.channelId.symm.trans hchannel, hlater.deleted hlive⟩⟩
  rw [faithful_merge_iff hname h hrows hnodup hkept hstays]
  refine forall₂_congr fun row hrow => forall₂_congr fun post' hpost' => or_congr_left ?_
  obtain ⟨last, hlast, hchannel⟩ := hstays row hrow
  obtain rfl := Option.some.inj (hpost'.symm.trans hlast)
  rw [mem_oldestFirst, mem_sinceRows]
  exact ⟨fun hm => hm.2.2, fun hm => ⟨hpost', hchannel, hm⟩⟩

/-- What is shown of a post that was neither created nor edited since, apart from its replies. -/
theorem toMm_unedited {id : Uuid} {post post' : Post} (hlater : Later t post post') (hlive : post'.deletedAt = none)
    (hold : ¬ Recent t post') : (listed db (id, post')).toMm = (listed db (id, post)).toMm := by
  rw [hlater.unedited hold, hlive, ← hlater.deleted hlive]
  rfl

theorem listed_unedited_iff {id : Uuid} {post post' : Post} (hlater : Later t post post') (hlive : post'.deletedAt = none)
    (hold : ¬ Recent t post') : listed db (id, post') = listed db (id, post) ↔
    post'.replyCount = post.replyCount := by
  constructor
  · intro h
    exact congrArg PostResponse.replyCount h
  · intro h
    have heq : post' = post := by
      rw [hlater.unedited hold, hlive, h, hlater.unanswered h, ← hlater.deleted hlive]
    rw [heq]

variable (tie fromMillis utcNow codecs) in
/-- The native answer leaves a faithful copy exactly if every post of the copy is created or edited since, or neither
deleted nor answered; the v4 answer exactly if no post of the copy is deleted. -/
theorem faithful_iff (isAlphanumeric : Char → Bool) (db db' : PostDb) (channelId : Uuid) (t : Int)
    (inputs : List ReplyCounts.Input)
    (hrun : Run.exec (ReplyCounts.step codecs isAlphanumeric) db inputs = some db')
    (htimes : ∀ input ∈ inputs, t ≤ input.drawn.now.toInt) (since : Int)
    (hsince : fromMillis since = some t) :
    (∀ copy, Faithful copy id (listed db) db channelId → ∀ query : PostsQuery, query.since = some since →
      (changedSince db' channelId t).length ≤ (min (if 0 < query.perPage then query.perPage else 60) 200).toNat →
        ∀ posts n, getPosts tie fromMillis utcNow db' channelId query = .ok (posts, n) →
          (Faithful (merge copy (changes posts)) id (listed db') db' channelId ↔
            ∀ row ∈ liveRows db channelId, ∀ post', db'.posts.lookup row.1 = some post' →
              Recent t post' ∨ post'.deletedAt = none ∧ post'.replyCount = row.2.replyCount)) ∧
    ∀ copy, Faithful copy encodeMmId (fun row => (listed db row).toMm) db channelId →
      ∀ (userId : Uuid) (channel : String) (pagination : Pagination), parseMmOrUuid codecs.parseUuid channel = some channelId →
        pagination.since = some since → (changedSince db' channelId t).length ≤ min (pagination.perPage.getD 60) 200 →
          ∀ list, getPostsV4 tie fromMillis utcNow codecs db' userId channel pagination = .ok list →
            (Faithful (merge copy (changesV4 list)) encodeMmId (fun row => (listed db' row).toMm) db' channelId ↔
              ∀ row ∈ liveRows db channelId, ∀ post', db'.posts.lookup row.1 = some post' → post'.deletedAt = none) := by
  have hhistory := since_run hrun htimes
  have hlater : ∀ row ∈ liveRows db channelId, ∀ post', db'.posts.lookup row.1 = some post' →
    Later t row.2 post' := by
    intro row hrow post' hpost'
    obtain ⟨last, hlast, hl⟩ := hhistory.old _ _ (mem_liveRows.1 hrow).1
    rwa [Option.some.inj (hpost'.symm.trans hlast)]
  constructor
  · intro copy hcopy query hquery hlimit posts n hanswer
    rw [getPosts, hquery] at hanswer
    dsimp only at hanswer
    rw [hsince, Option.getD_some, select_since hlimit] at hanswer
    obtain ⟨rfl, -⟩ := Prod.mk.inj (Except.ok.inj hanswer)
    rw [changes_listed, listed_eq hhistory]
    refine (faithful_since_iff Function.injective_id hhistory hcopy true).trans ?_
    refine forall₂_congr fun row hrow => forall₂_congr fun post' hpost' => ?_
    by_cases hrecent : Recent t post'
    · exact iff_of_true (.inl ⟨.inl rfl, hrecent⟩) (.inl hrecent)
    · simp only [hrecent, and_false, false_or]
      exact and_congr_right fun hlive => listed_unedited_iff (hlater row hrow post' hpost') hlive hrecent
  · intro copy hcopy userId channel pagination hchannel hquery hlimit list hanswer
    simp only [getPostsV4, bind_eq_ok, okOr_eq_ok, map_eq_ok] at hanswer
    obtain ⟨c, hc, _, -, selection, hselection, rows, hrows, rfl⟩ := hanswer
    obtain rfl := Option.some.inj (hchannel.symm.trans hc)
    rw [selectionV4, hquery] at hselection
    dsimp only at hselection
    rw [hsince, Option.getD_some] at hselection
    obtain rfl := Except.ok.inj hselection
    rw [select_since hlimit] at hrows
    obtain rfl := Except.ok.inj hrows
    have hnodup : ((oldestFirst tie (sinceRows db' channelId t false)).map Prod.fst).Nodup :=
      (Page.orderBy_perm.map Prod.fst).nodup_iff.2 nodup_sinceRows
    have hlive : ∀ row ∈ oldestFirst tie (sinceRows db' channelId t false), row.2.deletedAt = none :=
      fun row hrow =>
      (mem_sinceRows.1 (mem_oldestFirst.1 hrow)).2.2.1.resolve_left Bool.false_ne_true
    rw [changesV4_postList hnodup hlive, listed_eq hhistory]
    refine (faithful_since_iff encodeMmId_injective hhistory hcopy false).trans ?_
    refine forall₂_congr fun row hrow => forall₂_congr fun post' hpost' => ?_
    constructor
    · rintro (⟨hd, -⟩ | ⟨hd, -⟩)
      · exact hd.resolve_left Bool.false_ne_true
      · exact hd
    · intro hd
      by_cases hrecent : Recent t post'
      · exact .inl ⟨.inr hd, hrecent⟩
      · exact .inr ⟨hd, toMm_unedited (hlater row hrow post' hpost') hd hrecent⟩

end Answered

/-! ### One post -/

def copyOf (db : PostDb) (channelId : Uuid) (id : Uuid) : Option PostResponse :=
  ((db.posts.lookup id).filter fun post => decide (post.channelId = channelId ∧ post.deletedAt = none)).map fun post =>
    listed db (id, post)

theorem faithful_copyOf (db : PostDb) (channelId : Uuid) :
    Faithful (copyOf db channelId) id (listed db) db channelId := by
  intro i a
  unfold copyOf
  constructor
  · intro h
    obtain ⟨post, hpost, rfl⟩ := Option.map_eq_some_iff.1 h
    obtain ⟨hlookup, hlive⟩ := Option.filter_eq_some_iff.1 hpost
    exact ⟨(i, post), mem_liveRows.2 ⟨hlookup, of_decide_eq_true hlive⟩, rfl, rfl⟩
  · rintro ⟨row, hrow, rfl, rfl⟩
    obtain ⟨hlookup, hlive⟩ := mem_liveRows.1 hrow
    exact Option.map_eq_some_iff.2 ⟨row.2, Option.filter_eq_some_iff.2 ⟨hlookup, decide_eq_true hlive⟩, rfl⟩

/-- The post `7` is edited after the first millisecond. -/
def edited : List ReplyCounts.Input := [⟨.updatePost ⟨2, false⟩ 7 "b", ⟨0, 2000, 2000⟩, 2000⟩]

/-- The post `7` is deleted after the first millisecond. -/
def deleted : List ReplyCounts.Input := [⟨.deletePost ⟨2, false⟩ 7, ⟨0, 2000, 2000⟩, 2000⟩]

def after (inputs : List ReplyCounts.Input) : PostDb :=
  (Run.exec (ReplyCounts.step ThreadRun.plainCodecs Char.isAlphanum) ThreadRun.onePost inputs).getD ThreadRun.onePost

def sinceFirst : PostsQuery := ⟨0, 60, some 1, none, none⟩

theorem edited_synced : ∃ posts n,
    getPosts ThreadPages.byId ofMillis 0 (after edited) 5 sinceFirst = .ok (posts, n) ∧
      Faithful (merge (copyOf ThreadRun.onePost 5) (changes posts)) id (listed (after edited)) (after edited) 5 := by
  have h := faithful_iff ThreadPages.byId ofMillis 0 ThreadRun.plainCodecs Char.isAlphanum ThreadRun.onePost (after edited) 5
    1000 edited rfl (by decide) 1 rfl
  refine ⟨_, _, rfl, (h.1 _ (faithful_copyOf _ _) sinceFirst rfl (by decide) _ _ rfl).2 fun row hrow post' hpost' => ?_⟩
  obtain rfl := List.mem_singleton.1 hrow
  obtain rfl := Option.some.inj hpost'
  exact .inl (.inr (by decide))

/-- The deletion is not in the answer. -/
theorem deleted_not_synced :
    ¬ ∀ (db db' : PostDb) (channelId : Uuid) (t : Int) (inputs : List ReplyCounts.Input),
      Run.exec (ReplyCounts.step ThreadRun.plainCodecs Char.isAlphanum) db inputs = some db' →
      (∀ input ∈ inputs, t ≤ input.drawn.now.toInt) → ∀ since, ofMillis since = some t →
        ∀ copy, Faithful copy id (listed db) db channelId → ∀ query : PostsQuery, query.since = some since →
          (changedSince db' channelId t).length ≤ (min (if 0 < query.perPage then query.perPage else 60) 200).toNat →
            ∀ posts n, getPosts ThreadPages.byId ofMillis 0 db' channelId query = .ok (posts, n) →
              Faithful (merge copy (changes posts)) id (listed db') db' channelId := by
  intro h
  have hf := h ThreadRun.onePost (after deleted) 5 1000 deleted rfl (by decide) 1 rfl _ (faithful_copyOf _ _) sinceFirst rfl
    (by decide) _ _ rfl
  obtain ⟨row, hrow, -⟩ := (hf 7 _).1 rfl
  exact List.not_mem_nil hrow

end IncrementalSync
end Rustchat
