import Rustchat.SidebarUpdates

/-!
# What `get_categories` lists

The channels of an answer are those that are mapped to a category that is not deleted, once for each such category, and
the channels of the sidebar that are mapped to none (`listed_perm`).
-/

namespace Rustchat.SidebarEnv

open SidebarDb

variable {env : SidebarEnv} {db db' : SidebarDb} {userId teamId c ch : Uuid} {drawn : CategoryDraw}

/-- A category of the user in the team that is not deleted. -/
def Live (db : SidebarDb) (userId teamId c : Uuid) : Prop :=
  ∃ row, db.categories.lookup c = some row ∧ row.userId = userId ∧ row.teamId = teamId ∧ row.deleteAt = 0

theorem mem_liveCategories {row : Uuid × CategoryRow} : row ∈ env.liveCategories db userId teamId ↔
    db.categories.lookup row.1 = some row.2 ∧ row.2.userId = userId ∧ row.2.teamId = teamId ∧ row.2.deleteAt = 0 := by
  rw [liveCategories, Page.orderBy_perm.mem_iff, Assoc.mem_views]
  constructor
  · rintro ⟨id, row', hlookup, hrow⟩
    obtain ⟨hlive, hrow⟩ := Option.ite_none_right_eq_some.1 hrow
    rw [← Option.some.inj hrow]
    exact ⟨hlookup, hlive⟩
  · rintro ⟨hlookup, hlive⟩
    exact ⟨row.1, row.2, hlookup, if_pos hlive⟩

theorem live_iff_mem (env : SidebarEnv) :
    Live db userId teamId c ↔ ∃ row, (c, row) ∈ env.liveCategories db userId teamId := by
  simp only [mem_liveCategories, Live]

theorem nodup_liveCategories : ((env.liveCategories db userId teamId).map Prod.fst).Nodup := by
  refine (Page.orderBy_perm.map _).nodup_iff.2 (Assoc.nodup_map_views fun id row w hw => ?_)
  obtain ⟨-, hw⟩ := Option.ite_none_right_eq_some.1 hw
  rw [← Option.some.inj hw]

theorem live_congr {f : Uuid → CategoryRow → CategoryRow}
    (h : ∀ id, db'.categories.lookup id = (db.categories.lookup id).map (f id))
    (hf : ∀ id row, db.categories.lookup id = some row → (f id row).userId = row.userId ∧
      (f id row).teamId = row.teamId ∧ (f id row).deleteAt = row.deleteAt) :
    Live db' userId teamId c ↔ Live db userId teamId c := by
  unfold Live
  simp only [h, Option.map_eq_some_iff]
  constructor
  · rintro ⟨_, ⟨row, hrow, rfl⟩, hlive⟩
    obtain ⟨huser, hteam, hdelete⟩ := hf c row hrow
    exact ⟨row, hrow, by rwa [huser, hteam, hdelete] at hlive⟩
  · rintro ⟨row, hrow, hlive⟩
    obtain ⟨huser, hteam, hdelete⟩ := hf c row hrow
    exact ⟨f c row, ⟨row, hrow, rfl⟩, by rwa [huser, hteam, hdelete]⟩

theorem sortCategoryRows_perm {rows : List (Uuid × CategoryRow)} : (sortCategoryRows rows).Perm rows := by
  unfold sortCategoryRows
  dsimp only
  split
  · exact Page.orderBy_perm
  · exact Page.orderBy_perm

theorem mem_channelIds : ch ∈ env.channelIds db c ↔ (c, ch) ∈ db.mappings := by
  rw [channelIds, (Page.orderBy_perm.map _).mem_iff, ← mem_mappingsOf, List.mem_map]
  constructor
  · rintro ⟨m, hm, rfl⟩
    exact ⟨m.2, hm⟩
  · rintro ⟨i, hm⟩
    exact ⟨(ch, i), hm, rfl⟩

theorem nodup_channelIds : (env.channelIds db c).Nodup := by
  refine (Page.orderBy_perm.map _).nodup_iff.2 (List.Nodup.of_map (fun ch => (c, ch)) ?_)
  rw [List.map_map]
  refine Assoc.nodup_map_views fun m i w hw => ?_
  obtain ⟨hc, heq⟩ := Option.ite_none_right_eq_some.1 hw
  rw [← Option.some.inj heq, ← hc]
  rfl

theorem mem_candidates {channel : Uuid × SidebarChannel} :
    channel ∈ env.sidebarCandidateChannels db userId teamId ↔ db.channels.lookup channel.1 = some channel.2 ∧
      (channel.1, userId) ∈ db.channelMembers ∧ channel.2.isArchived = false ∧ InSidebar teamId channel.2 := by
  rw [sidebarCandidateChannels, Page.orderBy_perm.mem_iff, Assoc.mem_views]
  constructor
  · rintro ⟨id, row, hlookup, hrow⟩
    obtain ⟨hshown, hrow⟩ := Option.ite_none_right_eq_some.1 hrow
    rw [← Option.some.inj hrow]
    exact ⟨hlookup, hshown⟩
  · rintro ⟨hlookup, hshown⟩
    exact ⟨channel.1, channel.2, hlookup, if_pos hshown⟩

theorem nodup_candidates : ((env.sidebarCandidateChannels db userId teamId).map Prod.fst).Nodup := by
  refine (Page.orderBy_perm.map _).nodup_iff.2 (Assoc.nodup_map_views fun id row w hw => ?_)
  obtain ⟨-, hw⟩ := Option.ite_none_right_eq_some.1 hw
  rw [← Option.some.inj hw]

/-! ### Backfilling -/

variable {target : ChannelType → Option ℕ} {channels : List (Uuid × SidebarChannel)} {assignedIds : List Uuid}
  {cats : List SidebarCategory}

theorem flatMap_modify {id : Uuid} {idx : ℕ} (h : idx < cats.length) :
    ((cats.modify idx (pushChannel id)).flatMap fun cat => cat.channelIds).Perm
      ((cats.flatMap fun cat => cat.channelIds) ++ [encodeMmId id]) := by
  induction cats generalizing idx with
  | nil => exact absurd h (Nat.not_lt_zero _)
  | cons cat cats ih =>
    cases idx with
    | zero =>
      rw [List.modify_zero_cons, List.flatMap_cons, List.flatMap_cons, pushChannel, List.append_assoc, List.append_assoc]
      exact List.Perm.append_left _ List.perm_append_comm
    | succ idx =>
      rw [List.modify_succ_cons, List.flatMap_cons, List.flatMap_cons, List.append_assoc]
      exact List.Perm.append_left _ (ih (Nat.lt_of_succ_lt_succ h))

theorem flatMap_pushChannels (htarget : ∀ channelType, ∃ idx < cats.length, target channelType = some idx)
    (hnodup : (channels.map Prod.fst).Nodup) :
    ((pushChannels target channels assignedIds cats).flatMap fun cat => cat.channelIds).Perm
      ((cats.flatMap fun cat => cat.channelIds) ++
        ((channels.map Prod.fst).filter (· ∉ assignedIds)).map encodeMmId) := by
  induction channels generalizing assignedIds cats with
  | nil => simp [pushChannels]
  | cons c channels ih =>
    rw [List.map_cons] at hnodup ⊢
    obtain ⟨hnotin, hnodup⟩ := List.nodup_cons.1 hnodup
    rw [pushChannels]
    by_cases hc : c.1 ∈ assignedIds
    · rw [if_pos hc, List.filter_cons_of_neg (by simpa using hc)]
      exact ih htarget hnodup
    · obtain ⟨idx, hidx, heq⟩ := htarget c.2.channelType
      rw [if_neg hc, heq, List.filter_cons_of_pos (by simpa using hc), List.map_cons]
      dsimp only
      have hfilter : (channels.map Prod.fst).filter (· ∉ c.1 :: assignedIds) =
          (channels.map Prod.fst).filter (· ∉ assignedIds) := by
        refine List.filter_congr fun id hid => ?_
        have hne : id ≠ c.1 := fun he => hnotin (he ▸ hid)
        simp [hne]
      refine (ih (fun channelType => ?_) hnodup).trans ?_
      · rw [List.length_modify]
        exact htarget channelType
      · rw [hfilter, List.append_cons]
        exact (flatMap_modify hidx).append_right _

theorem pushChannels_of_assigned (h : ∀ c ∈ channels, c.1 ∈ assignedIds) :
    pushChannels target channels assignedIds cats = cats := by
  induction channels with
  | nil => rfl
  | cons c channels ih =>
    rw [pushChannels, if_pos (h c List.mem_cons_self)]
    exact ih fun c' hc' => h c' (List.mem_cons_of_mem _ hc')

theorem categoryIndex_lt {targetType : String} {idx : ℕ} (h : categoryIndexByTypeOrName cats targetType = some idx) :
    idx < cats.length := by
  unfold categoryIndexByTypeOrName at h
  rcases Option.or_eq_some_iff.1 h with h | ⟨-, h⟩
  · exact (List.findIdx?_eq_some_iff_getElem.1 h).1
  · exact (List.findIdx?_eq_some_iff_getElem.1 h).1

theorem targetIdx_lt (hcats : cats ≠ []) (channelType : ChannelType) :
    ∃ idx < cats.length, targetIdx cats channelType = some idx := by
  have hchannels : ∃ idx < cats.length, (categoryIndexByTypeOrName cats "channels").or (some 0) = some idx := by
    cases h : categoryIndexByTypeOrName cats "channels" with
    | none => exact ⟨0, List.length_pos_iff.2 hcats, rfl⟩
    | some idx => exact ⟨idx, categoryIndex_lt h, rfl⟩
  have hdms : ∃ idx < cats.length, (categoryIndexByTypeOrName cats "direct_messages").or
      ((categoryIndexByTypeOrName cats "channels").or (some 0)) = some idx := by
    cases h : categoryIndexByTypeOrName cats "direct_messages" with
    | none => exact hchannels
    | some idx => exact ⟨idx, categoryIndex_lt h, rfl⟩
  cases channelType with
  | Public => exact hchannels
  | Private => exact hchannels
  | Direct => exact hdms
  | Group => exact hdms

/-! ### An answer -/

variable (env) in
/-- The channels that are mapped to categories that are not deleted. -/
def mapped (db : SidebarDb) (userId teamId : Uuid) : List Uuid :=
  (env.liveCategories db userId teamId).flatMap fun row => env.channelIds db row.1

variable (env) in
def unmapped (db : SidebarDb) (userId teamId : Uuid) : List Uuid :=
  ((env.sidebarCandidateChannels db userId teamId).map Prod.fst).filter (· ∉ env.mapped db userId teamId)

theorem mem_mapped : ch ∈ env.mapped db userId teamId ↔ ∃ c, Live db userId teamId c ∧ (c, ch) ∈ db.mappings := by
  simp only [mapped, List.mem_flatMap, mem_channelIds, live_iff_mem env]
  constructor
  · rintro ⟨row, hrow, hm⟩
    exact ⟨row.1, ⟨row.2, hrow⟩, hm⟩
  · rintro ⟨c, ⟨row, hrow⟩, hm⟩
    exact ⟨(c, row), hrow, hm⟩

theorem listed_perm : ((env.categoriesOf db drawn userId teamId).categories.flatMap fun cat => cat.channelIds).Perm
    ((env.mapped db userId teamId ++ env.unmapped db userId teamId).map encodeMmId) := by
  unfold categoriesOf
  dsimp only
  by_cases hrows : (env.liveCategories db userId teamId).isEmpty = true
  · have hmapped : env.mapped db userId teamId = [] := by rw [mapped, List.isEmpty_iff.1 hrows, List.flatMap_nil]
    rw [if_pos hrows, unmapped, hmapped, List.nil_append, List.filter_eq_self.2 fun _ _ => by simp, List.map_map]
    simp only [buildDefaultCategories, List.flatMap_cons, List.flatMap_nil, List.append_nil]
    exact List.Perm.refl _
  · set sorted := sortCategoryRows (env.liveCategories db userId teamId) with hsorted
    have hperm : sorted.Perm (env.liveCategories db userId teamId) := sortCategoryRows_perm
    have hassigned : (sorted.flatMap fun row => env.channelIds db row.1).Perm (env.mapped db userId teamId) :=
      hperm.flatMap_right _
    have hne : (sorted.map fun row => row.2.toCategory row.1 (env.channelIds db row.1)) ≠ [] := by
      intro hnil
      rw [List.map_eq_nil_iff] at hnil
      rw [hnil] at hperm
      exact hrows (List.isEmpty_iff.2 hperm.symm.eq_nil)
    rw [if_neg hrows]
    dsimp only
    rw [backfillOrphanedChannels, if_neg fun h => hne (List.isEmpty_iff.1 h), List.map_append]
    refine (flatMap_pushChannels (targetIdx_lt hne) nodup_candidates).trans (List.Perm.append ?_ ?_)
    · rw [List.flatMap_map]
      have hids : (sorted.flatMap fun row => (row.2.toCategory row.1 (env.channelIds db row.1)).channelIds) =
          (sorted.flatMap fun row => env.channelIds db row.1).map encodeMmId := by
        rw [List.map_flatMap]
        rfl
      rw [hids]
      exact hassigned.map _
    · have hfilter : ((env.sidebarCandidateChannels db userId teamId).map Prod.fst).filter
          (· ∉ sorted.flatMap fun row => env.channelIds db row.1) = env.unmapped db userId teamId := by
        refine List.filter_congr fun id _ => ?_
        simp only [hassigned.mem_iff]
      rw [hfilter]

end Rustchat.SidebarEnv
