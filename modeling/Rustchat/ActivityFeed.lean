import Rustchat.EmailAccounts
import Rustchat.Threads

/-!
# The activity feed (`services/activity.rs`)

`get_activities` lists the activities of a user, the newest first, and goes on behind the last one of a page by time
and id. The rows of one time come in the order of the database, not in that of their ids: following the cursors
lists every activity once exactly if at the end of every page, among the rows of its last time, the greater ids come
before and the smaller ones after (`ActivityFeed.enumerates_iff_cut`).
-/

namespace Rustchat

/-- `activities.type`, which a `CHECK` keeps to these names. -/
inductive ActivityType where
  | mention
  | reply
  | reaction
  | dm
  | threadReply

def ActivityType.text : ActivityType → String
  | .mention => "mention"
  | .reply => "reply"
  | .reaction => "reaction"
  | .dm => "dm"
  | .threadReply => "thread_reply"

structure Activity where
  userId : Uuid
  type : ActivityType
  actorId : Uuid
  channelId : Uuid
  teamId : Uuid
  postId : Uuid
  rootId : Option Uuid
  messageText : Option String
  reaction : Option String
  read : Bool
  createdAt : Int

structure ActivityResponse where
  id : Uuid
  type : ActivityType
  actorId : Uuid
  actorUsername : String
  actorAvatarUrl : Option String
  channelId : Uuid
  channelName : String
  teamId : Uuid
  teamName : String
  postId : Uuid
  rootId : Option Uuid
  messageText : Option String
  reaction : Option String
  read : Bool
  createdAt : Int

structure ActivityQuery where
  cursor : Option Uuid
  limit : Int
  activityType : Option String
  unreadOnly : Bool

structure ActivityFeedResponse where
  order : List String
  activities : Assoc String ActivityResponse
  unreadCount : Int
  nextCursor : Option String

/-- The activities, and the names of the channels and teams that they refer to. -/
structure ActivityDb where
  activities : Assoc Uuid Activity
  users : Assoc Uuid PostUser
  channels : Assoc Uuid String
  teams : Assoc Uuid String
  -- the foreign keys of `activities`
  references : ∀ id a, activities.lookup id = some a → a.actorId ∈ users ∧ a.channelId ∈ channels ∧ a.teamId ∈ teams

namespace ActivityDb

def joined (db : ActivityDb) (id : Uuid) (a : Activity) : Option ActivityResponse :=
  (db.users.lookup a.actorId).bind fun actor =>
  (db.channels.lookup a.channelId).bind fun channelName =>
  (db.teams.lookup a.teamId).map fun teamName =>
    { id, type := a.type, actorId := a.actorId, actorUsername := actor.username, actorAvatarUrl := actor.avatarUrl,
      channelId := a.channelId, channelName, teamId := a.teamId, teamName, postId := a.postId, rootId := a.rootId,
      messageText := a.messageText, reaction := a.reaction, read := a.read, createdAt := a.createdAt }

/-- `(a.created_at, a.id) < (SELECT created_at, id FROM activities WHERE id = $2)` -/
def behind (db : ActivityDb) (cursor : Option Uuid) (id : Uuid) (createdAt : Int) : Bool :=
  cursor.all fun c => (db.activities.lookup c).any fun last =>
    createdAt < last.createdAt ∨ createdAt = last.createdAt ∧ id < c

def typeFilters (activityType : Option String) : Option (List String) :=
  activityType.map fun types => (types.toList.splitOn ',').map fun part => trimText (String.ofList part)

/-- Whose activities, of what types, and whether only the unread ones. -/
def Matches (userId : Uuid) (types : Option (List String)) (unreadOnly : Bool) (a : Activity) : Prop :=
  a.userId = userId ∧ types.all (a.type.text ∈ ·) ∧ (unreadOnly = true → a.read = false)

instance (userId : Uuid) (types : Option (List String)) (unreadOnly : Bool) (a : Activity) :
    Decidable (Matches userId types unreadOnly a) :=
  inferInstanceAs (Decidable (_ ∧ _))

def feedRows (db : ActivityDb) (userId : Uuid) (cursor : Option Uuid) (types : Option (List String))
    (unreadOnly : Bool) : List ActivityResponse :=
  Assoc.views (fun id a =>
    if Matches userId types unreadOnly a ∧ db.behind cursor id a.createdAt then db.joined id a else none) db.activities

-- the order of the rows of one time
variable (tie : Uuid ↪ ℕ)

def getActivities (db : ActivityDb) (userId : Uuid) (query : ActivityQuery) : ActivityFeedResponse :=
  let limit := (max 1 (min query.limit 100)).toNat
  let types := typeFilters query.activityType
  let fetched := Page.page (fun r => threadKey tie r.id (-r.createdAt)) (limit + 1)
    (db.feedRows userId query.cursor types query.unreadOnly)
  let rows := fetched.take limit
  { order := rows.map fun r => r.id.hyphenated
    activities := rows.foldl (fun activities r => activities.insert r.id.hyphenated r) ∅
    unreadCount := (Assoc.views (fun id a => if Matches userId types true a then some id else none)
      db.activities).length
    nextCursor := if limit < fetched.length then rows.getLast?.map fun r => r.id.hyphenated else none }

end ActivityDb

namespace ActivityFeed

open ActivityDb

def matching (db : ActivityDb) (userId : Uuid) (activityType : Option String) (unreadOnly : Bool) :
    List (Uuid × Int) :=
  Assoc.views (fun id a =>
    if Matches userId (typeFilters activityType) unreadOnly a then some (id, a.createdAt) else none) db.activities

variable (tie : Uuid ↪ ℕ)

/-- A page, with the cursor that a client reads off `next_cursor`. -/
def fetch (db : ActivityDb) (userId : Uuid) (activityType : Option String) (unreadOnly : Bool) (limit : Int)
    (cursor : Option Uuid) : Option (List String × Option Uuid) :=
  let response := db.getActivities tie userId ⟨cursor, limit, activityType, unreadOnly⟩
  match response.nextCursor with
  | none => some (response.order, none)
  | some next => (Uuid.ofHyphenated next).map fun id => (response.order, some id)

/-- Following `next_cursor` until it is absent yields every matching activity once. -/
def Enumerates (db : ActivityDb) (userId : Uuid) (activityType : Option String) (unreadOnly : Bool) (limit : Int) :
    Prop :=
  ∃ fuel order, Page.follow (fetch tie db userId activityType unreadOnly limit) fuel none = some order ∧
    order.Perm ((matching db userId activityType unreadOnly).map fun k => k.1.hyphenated)

/-- The matching activities as the database lists them. -/
def ordered (db : ActivityDb) (userId : Uuid) (activityType : Option String) (unreadOnly : Bool) :
    List (Uuid × Int) :=
  Page.orderBy (fun k => threadKey tie k.1 (-k.2)) (matching db userId activityType unreadOnly)

/-- What the cursor compares. -/
def Older (c k : Uuid × Int) : Prop := k.2 < c.2 ∨ k.2 = c.2 ∧ k.1 < c.1

instance : DecidableRel Older := fun c k => inferInstanceAs (Decidable (k.2 < c.2 ∨ k.2 = c.2 ∧ k.1 < c.1))

instance : IsStrictOrder (Uuid × Int) Older where
  irrefl c := by
    rintro (h | ⟨-, h⟩)
    · exact lt_irrefl _ h
    · exact BitVec.lt_irrefl _ h
  trans a b c := by
    rintro (hab | ⟨hab, hab'⟩) (hbc | ⟨hbc, hbc'⟩)
    · exact .inl (hbc.trans hab)
    · exact .inl (hbc.trans_lt hab)
    · exact .inl (hbc.trans_eq hab)
    · exact .inr ⟨hbc.trans hab, BitVec.lt_trans hbc' hab'⟩

def pageSize (limit : Int) : ℕ := (max 1 (min limit 100)).toNat

/-! ### One page -/

variable {tie} {db : ActivityDb} {userId : Uuid} {activityType : Option String} {unreadOnly : Bool} {limit : Int}

theorem joined_proj {id : Uuid} {a : Activity} (h : db.activities.lookup id = some a) :
    (db.joined id a).map (fun r => (r.id, r.createdAt)) = some (id, a.createdAt) := by
  obtain ⟨hactor, hchannel, hteam⟩ := db.references id a h
  obtain ⟨actor, hactor⟩ := Option.isSome_iff_exists.1 (AList.lookup_isSome.2 hactor)
  obtain ⟨channelName, hchannel⟩ := Option.isSome_iff_exists.1 (AList.lookup_isSome.2 hchannel)
  obtain ⟨teamName, hteam⟩ := Option.isSome_iff_exists.1 (AList.lookup_isSome.2 hteam)
  rw [joined, hactor, Option.bind_some, hchannel, Option.bind_some, hteam]
  rfl

theorem map_feedRows (cursor : Option Uuid) :
    (db.feedRows userId cursor (typeFilters activityType) unreadOnly).map (fun r => (r.id, r.createdAt)) =
      (matching db userId activityType unreadOnly).filter fun k => db.behind cursor k.1 k.2 := by
  unfold feedRows matching Assoc.views
  rw [List.map_filterMap, List.filter_filterMap]
  refine List.filterMap_congr fun e he => ?_
  have hproj := joined_proj (Assoc.mem_entries_iff.1 he)
  dsimp only
  by_cases hm : Matches userId (typeFilters activityType) unreadOnly e.2
  · by_cases hb : db.behind cursor e.1 e.2.createdAt = true
    · rw [if_pos ⟨hm, hb⟩, if_pos hm, hproj, Option.filter_some, if_pos hb]
    · rw [if_neg fun h => hb h.2, if_pos hm, Option.filter_some, if_neg hb]
      rfl
  · rw [if_neg fun h => hm h.1, if_neg hm]
    rfl

theorem nodup_matching : ((matching db userId activityType unreadOnly).map Prod.fst).Nodup := by
  refine Assoc.nodup_map_views fun id a k hk => ?_
  obtain ⟨-, hk⟩ := Option.ite_none_right_eq_some.1 hk
  rw [← Option.some.inj hk]

theorem lookup_of_mem_matching {k : Uuid × Int} (h : k ∈ matching db userId activityType unreadOnly) :
    ∃ a, db.activities.lookup k.1 = some a ∧ a.createdAt = k.2 := by
  obtain ⟨id, a, ha, hk⟩ := Assoc.mem_views.1 h
  obtain ⟨-, hk⟩ := Option.ite_none_right_eq_some.1 hk
  rw [← Option.some.inj hk]
  exact ⟨a, ha, rfl⟩

theorem ordered_perm :
    (ordered tie db userId activityType unreadOnly).Perm (matching db userId activityType unreadOnly) :=
  Page.orderBy_perm

theorem map_orderBy_feedRows (tie : Uuid ↪ ℕ) (cursor : Option Uuid) :
    (Page.orderBy (fun r => threadKey tie r.id (-r.createdAt))
      (db.feedRows userId cursor (typeFilters activityType) unreadOnly)).map (fun r => (r.id, r.createdAt)) =
      (ordered tie db userId activityType unreadOnly).filter fun k => db.behind cursor k.1 k.2 := by
  have hkeys : ((matching db userId activityType unreadOnly).map fun k => threadKey tie k.1 (-k.2)).Nodup :=
    nodup_threadKey nodup_matching
  unfold ordered
  rw [← Page.orderBy_filter hkeys, ← map_feedRows]
  exact List.map_insertionSort _ _ _ _ fun _ _ _ _ => Iff.rfl

theorem filter_behind {c : Option (Uuid × Int)}
    (hc : ∀ d ∈ c, d ∈ ordered tie db userId activityType unreadOnly) :
    (ordered tie db userId activityType unreadOnly).filter (fun k => db.behind (c.map Prod.fst) k.1 k.2) =
      Page.rest Older (ordered tie db userId activityType unreadOnly) c := by
  unfold Page.rest
  refine List.filter_congr fun k _ => ?_
  cases c with
  | none => rfl
  | some d =>
    obtain ⟨last, hlast, htime⟩ := lookup_of_mem_matching (ordered_perm.mem_iff.1 (hc d rfl))
    rw [Option.map_some, behind, Option.all_some, Option.all_some, hlast, Option.any_some, htime]
    rfl

theorem map_take_page {c : Option (Uuid × Int)} (hc : ∀ d ∈ c, d ∈ ordered tie db userId activityType unreadOnly) :
    ((Page.page (fun r => threadKey tie r.id (-r.createdAt)) (pageSize limit + 1)
      (db.feedRows userId (c.map Prod.fst) (typeFilters activityType) unreadOnly)).take (pageSize limit)).map
        (fun r => (r.id, r.createdAt)) =
      (Page.rest Older (ordered tie db userId activityType unreadOnly) c).take (pageSize limit) := by
  rw [← filter_behind hc, ← map_orderBy_feedRows, Page.take_page, min_eq_left (Nat.le_succ _), Page.page,
    List.map_take]

theorem lt_length_page_iff {c : Option (Uuid × Int)}
    (hc : ∀ d ∈ c, d ∈ ordered tie db userId activityType unreadOnly) :
    pageSize limit < (Page.page (fun r => threadKey tie r.id (-r.createdAt)) (pageSize limit + 1)
      (db.feedRows userId (c.map Prod.fst) (typeFilters activityType) unreadOnly)).length ↔
      pageSize limit < (Page.rest Older (ordered tie db userId activityType unreadOnly) c).length := by
  rw [← filter_behind hc, ← map_orderBy_feedRows, List.length_map, Page.orderBy_perm.length_eq, Page.length_page]
  omega

theorem order_eq {c : Option (Uuid × Int)} (hc : ∀ d ∈ c, d ∈ ordered tie db userId activityType unreadOnly) :
    (db.getActivities tie userId ⟨c.map Prod.fst, limit, activityType, unreadOnly⟩).order =
      (Page.window Older (pageSize limit) (ordered tie db userId activityType unreadOnly) c).1.map
        fun k => k.1.hyphenated := by
  rw [Page.window, ← map_take_page hc, List.map_map]
  rfl

theorem nextCursor_eq {c : Option (Uuid × Int)} (hc : ∀ d ∈ c, d ∈ ordered tie db userId activityType unreadOnly) :
    (db.getActivities tie userId ⟨c.map Prod.fst, limit, activityType, unreadOnly⟩).nextCursor =
      (Page.window Older (pageSize limit) (ordered tie db userId activityType unreadOnly) c).2.map
        fun k => k.1.hyphenated := by
  rw [Page.window, ← map_take_page hc, List.getLast?_map]
  by_cases hmore : pageSize limit < (Page.rest Older (ordered tie db userId activityType unreadOnly) c).length
  · rw [if_pos hmore, Option.map_map]
    exact if_pos ((lt_length_page_iff hc).2 hmore)
  · rw [if_neg hmore]
    exact if_neg fun h => hmore ((lt_length_page_iff hc).1 h)

theorem fetch_eq {c : Option (Uuid × Int)} (hc : ∀ d ∈ c, d ∈ ordered tie db userId activityType unreadOnly) :
    fetch tie db userId activityType unreadOnly limit (c.map Prod.fst) =
      some ((Page.window Older (pageSize limit) (ordered tie db userId activityType unreadOnly) c).1.map
          fun k => k.1.hyphenated,
        (Page.window Older (pageSize limit) (ordered tie db userId activityType unreadOnly) c).2.map Prod.fst) := by
  rw [fetch, nextCursor_eq hc, order_eq hc]
  cases (Page.window Older (pageSize limit) (ordered tie db userId activityType unreadOnly) c).2 with
  | none => rfl
  | some d =>
    rw [Option.map_some, Option.map_some]
    dsimp only
    rw [Uuid.ofHyphenated_hyphenated]
    rfl

/-! ### All pages -/

theorem nodup_names : ((ordered tie db userId activityType unreadOnly).map fun k => k.1.hyphenated).Nodup := by
  have h := (@nodup_matching db userId activityType unreadOnly).map Uuid.hyphenated_injective
  rw [List.map_map] at h
  exact (ordered_perm.map _).nodup_iff.2 h

theorem pageSize_pos : 0 < pageSize limit := by
  unfold pageSize
  omega

theorem cut_of_enumerates (h : Enumerates tie db userId activityType unreadOnly limit) :
    Page.Cut Older (pageSize limit) (ordered tie db userId activityType unreadOnly) := by
  obtain ⟨fuel, order, hfollow, hp⟩ := h
  exact (Page.perm_follow_iff pageSize_pos nodup_names fun c hc => fetch_eq hc).1
    ⟨fuel, order, hfollow, hp.trans (ordered_perm.map _).symm⟩

theorem enumerates_of_cut
    (h : Page.Cut Older (pageSize limit) (ordered tie db userId activityType unreadOnly)) :
    Enumerates tie db userId activityType unreadOnly limit := by
  obtain ⟨fuel, order, hfollow, hp⟩ :=
    (Page.perm_follow_iff pageSize_pos nodup_names fun c hc => fetch_eq hc).2 h
  exact ⟨fuel, order, hfollow, hp.trans (ordered_perm.map _)⟩

/-- Following the cursors yields every matching activity once exactly if each page ends where the rows that the cursor
counts as older begin. -/
theorem enumerates_iff_cut (tie : Uuid ↪ ℕ) (db : ActivityDb) (userId : Uuid) (activityType : Option String)
    (unreadOnly : Bool) (limit : Int) : Enumerates tie db userId activityType unreadOnly limit ↔
      Page.Cut Older (pageSize limit) (ordered tie db userId activityType unreadOnly) :=
  ⟨cut_of_enumerates, enumerates_of_cut⟩

/-- Two mentions of one time. -/
def twoMentions : ActivityDb where
  activities := ((∅ : Assoc Uuid Activity).insert 9 ⟨1, .mention, 2, 5, 3, 7, none, none, none, false, 4⟩).insert 8
    ⟨1, .mention, 2, 5, 3, 7, none, none, none, false, 4⟩
  users := (∅ : Assoc Uuid PostUser).insert 2 ⟨"member", "bob", none⟩
  channels := (∅ : Assoc Uuid String).insert 5 "general"
  teams := (∅ : Assoc Uuid String).insert 3 "core"
  references id a ha := by
    rcases Assoc.lookup_insert_cases ha with ⟨-, rfl⟩ | ⟨-, ha⟩
    · decide
    · rcases Assoc.lookup_insert_cases ha with ⟨-, rfl⟩ | ⟨-, ha⟩
      · decide
      · cases ha

/-- The database lists the smaller id first, and the greater one is not older. -/
theorem skips_simultaneous : ¬ Enumerates ⟨BitVec.toNat, BitVec.toNat_injective⟩ twoMentions 1 none false 1 := by
  intro h
  have hordered : ordered ⟨BitVec.toNat, BitVec.toNat_injective⟩ twoMentions 1 none false = [(8, 4), (9, 4)] := by
    decide
  have hcut := cut_of_enumerates h
  rw [hordered] at hcut
  have holder := (hcut [] (8, 4) [(9, 4)] rfl (by decide) (by decide)).2 (9, 4) (by decide)
  exact absurd holder (by decide)

end ActivityFeed
end Rustchat
