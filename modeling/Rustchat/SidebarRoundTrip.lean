import Rustchat.SidebarAnswers
import Rustchat.SidebarIsolation

/-!
# Writing an answer back

A client takes the categories of an answer, moves channels among them and sends them back. The answer has stored
categories or, when there are none, a made-up one that has no row. The next answer has what was sent exactly if there is
a stored category and no category lists a channel twice (`SidebarRoundTrip.returns_iff`).
-/

namespace Rustchat.SidebarRoundTrip

open SidebarDb SidebarEnv

def bare (cat : SidebarCategory) : SidebarCategory := { cat with channelIds := [] }

/-- The same categories with the same channels, in other places. -/
structure Rearranges (answer cats : List SidebarCategory) : Prop where
  bare : cats.map bare = answer.map bare
  channels : (cats.flatMap fun cat => cat.channelIds).Perm (answer.flatMap fun cat => cat.channelIds)

/-- The update is accepted, and the next answer has the categories with the channels that were sent. -/
def Returns (env : SidebarEnv) (db : SidebarDb) (userId teamId : Uuid) (now : Int) (next : CategoryDraw)
    (cats : List SidebarCategory) : Prop :=
  ∃ db' out answer, env.updateCategories db now userId teamId cats = .ok (db', out) ∧
    env.getCategories db' next userId teamId = .ok answer ∧
    answer.categories.map (fun cat => (cat.id, cat.channelIds)) = cats.map fun cat => (cat.id, cat.channelIds)

variable {env : SidebarEnv} {db db' : SidebarDb} {userId teamId c : Uuid} {now : Int} {drawn next : CategoryDraw}
  {answer : SidebarCategories} {cats : List SidebarCategory}

theorem parse_encode (hparse : ∀ id, env.parseUuid (encodeMmId id) = none) (id : Uuid) :
    env.parse (encodeMmId id) = some id := parse_encodeMmId hparse id

theorem categoryUuid_encode (hparse : ∀ id, env.parseUuid (encodeMmId id) = none) (id : Uuid) :
    env.categoryUuid (encodeMmId id) = id := by
  rw [categoryUuid, parse_encode hparse]
  rfl

theorem map_filterMap_parse (hparse : ∀ id, env.parseUuid (encodeMmId id) = none) {ids : List String}
    (h : ∀ id ∈ ids, ∃ ch, id = encodeMmId ch) : (ids.filterMap env.parse).map encodeMmId = ids := by
  induction ids with
  | nil => rfl
  | cons id ids ih =>
    obtain ⟨ch, rfl⟩ := h id List.mem_cons_self
    rw [List.filterMap_cons_some (parse_encode hparse ch), List.map_cons,
      ih fun id hid => h id (List.mem_cons_of_mem _ hid)]

def touch (now : Int) (row : Uuid × CategoryRow) : Uuid × CategoryRow := (row.1, { row.2 with updateAt := now })

structure Same (cat : SidebarCategory) (row : CategoryRow) : Prop where
  displayName : cat.displayName = row.displayName
  sorting : cat.sorting = row.sorting
  muted : cat.muted = row.muted
  collapsed : cat.collapsed = row.collapsed

theorem editRow_of_same {cat : SidebarCategory} {row : CategoryRow} (hid : env.categoryUuid cat.id = c)
    (huser : row.userId = userId) (hteam : row.teamId = teamId) (h : Same cat row) :
    env.editRow userId teamId now c row cat = { row with updateAt := now } := by
  have hfits : (fitsColumn 64 cat.displayName && fitsColumn 32 cat.sorting) = true := by
    have hrow := row.fits
    rw [h.displayName, h.sorting]
    simp only [Bool.and_eq_true] at hrow ⊢
    exact ⟨hrow.1.2, hrow.2⟩
  rw [editRow, dif_pos hfits, if_pos ⟨hid, huser, hteam⟩]
  obtain ⟨hname, hsorting, hmuted, hcollapsed⟩ := h
  unfold CategoryRow.edit
  congr 1

theorem editRow_of_ne {cat : SidebarCategory} {row : CategoryRow} (hid : env.categoryUuid cat.id ≠ c) :
    env.editRow userId teamId now c row cat = row := by
  unfold editRow
  split
  · exact if_neg fun h => hid h.1
  · rfl

theorem foldl_editRow_of_same {row : CategoryRow} (huser : row.userId = userId) (hteam : row.teamId = teamId)
    (h : ∀ cat ∈ cats, env.categoryUuid cat.id = c → Same cat row)
    (hnamed : ∃ cat ∈ cats, env.categoryUuid cat.id = c) :
    cats.foldl (env.editRow userId teamId now c) row = { row with updateAt := now } := by
  -- once touched it stays so
  have htouched : ∀ cats : List SidebarCategory, (∀ cat ∈ cats, env.categoryUuid cat.id = c → Same cat row) →
      cats.foldl (env.editRow userId teamId now c) { row with updateAt := now } = { row with updateAt := now } := by
    intro cats h
    induction cats with
    | nil => rfl
    | cons cat cats ih =>
      have hfirst : env.editRow userId teamId now c { row with updateAt := now } cat = { row with updateAt := now } := by
        by_cases hid : env.categoryUuid cat.id = c
        · obtain ⟨hname, hsorting, hmuted, hcollapsed⟩ := h cat List.mem_cons_self hid
          exact editRow_of_same hid huser hteam ⟨hname, hsorting, hmuted, hcollapsed⟩
        · exact editRow_of_ne hid
      rw [List.foldl_cons, hfirst]
      exact ih fun cat hcat => h cat (List.mem_cons_of_mem _ hcat)
  induction cats with
  | nil =>
    obtain ⟨cat, hcat, -⟩ := hnamed
    exact absurd hcat List.not_mem_nil
  | cons cat cats ih =>
    have hrest : ∀ cat ∈ cats, env.categoryUuid cat.id = c → Same cat row :=
      fun cat hcat => h cat (List.mem_cons_of_mem _ hcat)
    rw [List.foldl_cons]
    by_cases hid : env.categoryUuid cat.id = c
    · rw [editRow_of_same hid huser hteam (h cat List.mem_cons_self hid)]
      exact htouched cats hrest
    · rw [editRow_of_ne hid]
      refine ih hrest ?_
      obtain ⟨cat', hcat', hid'⟩ := hnamed
      rcases List.mem_cons.1 hcat' with rfl | hcat'
      · exact absurd hid' hid
      · exact ⟨cat', hcat', hid'⟩

theorem liveCategories_touch
    (h : ∀ id row', db'.categories.lookup id = some row' ∧ row'.userId = userId ∧ row'.teamId = teamId ∧
      row'.deleteAt = 0 ↔ ∃ row, (id, row) ∈ env.liveCategories db userId teamId ∧ row' = { row with updateAt := now }) :
    env.liveCategories db' userId teamId = (env.liveCategories db userId teamId).map (touch now) := by
  symm
  have hfst : ((env.liveCategories db userId teamId).map (touch now)).map Prod.fst =
      (env.liveCategories db userId teamId).map Prod.fst := by
    rw [List.map_map]
    rfl
  refine Page.eq_orderBy ?_ ?_
  · refine (List.perm_ext_iff_of_nodup (List.Nodup.of_map Prod.fst (hfst ▸ nodup_liveCategories)) ?_).2 fun row => ?_
    · have hnodup := (Page.orderBy_perm.map Prod.fst).nodup_iff.1 (@nodup_liveCategories env db' userId teamId)
      exact hnodup.of_map _
    · refine Iff.trans ?_ (show row ∈ env.liveCategories db' userId teamId ↔ _ from Page.orderBy_perm.mem_iff)
      rw [List.mem_map, mem_liveCategories, h]
      constructor
      · rintro ⟨row', hrow', rfl⟩
        exact ⟨row'.2, hrow', rfl⟩
      · rintro ⟨row', hrow', heq⟩
        exact ⟨(row.1, row'), hrow', Prod.ext rfl heq.symm⟩
  · rw [List.pairwise_map]
    refine Page.pairwise_orderBy ?_
    have hnodup := (Page.orderBy_perm.map Prod.fst).nodup_iff.1 (@nodup_liveCategories env db userId teamId)
    have htie := hnodup.map env.tie.injective
    rwa [List.map_map] at htie

theorem sortCategoryRows_touch {rows : List (Uuid × CategoryRow)} :
    sortCategoryRows (rows.map (touch now)) = (sortCategoryRows rows).map (touch now) := by
  unfold sortCategoryRows
  dsimp only
  have hany : (rows.map (touch now)).any (fun row => row.2.sortOrder ≠ 0) = rows.any fun row => row.2.sortOrder ≠ 0 := by
    rw [List.any_map]
    rfl
  rw [hany]
  split
  · exact Page.orderBy_map fun _ => rfl
  · exact Page.orderBy_map fun _ => rfl

theorem place_eq_some {l : List Uuid} (hl : l.Nodup) {ch : Uuid} {i : Int} :
    place l ch = some i ↔ ∃ n : ℕ, l[n]? = some ch ∧ i = n := by
  unfold place
  constructor
  · intro h
    obtain ⟨hch, hi⟩ := Option.ite_none_right_eq_some.1 h
    exact ⟨l.idxOf ch, List.getElem?_idxOf hch, (Option.some.inj hi).symm⟩
  · rintro ⟨n, hn, rfl⟩
    obtain ⟨hlt, rfl⟩ := List.getElem?_eq_some_iff.1 hn
    rw [if_pos (List.getElem_mem hlt), hl.idxOf_getElem]

theorem channelIds_of_place {l : List Uuid} (hl : l.Nodup) (h : ∀ ch, db.mappings.lookup (c, ch) = place l ch) :
    env.channelIds db c = l := by
  have hfst : (l.zipIdx.map fun p => (p.1, (p.2 : Int))).map Prod.fst = l := by
    rw [List.map_map]
    exact List.zipIdx_map_fst 0 l
  have hplaces : l.zipIdx.map (fun p => (p.1, (p.2 : Int))) =
      Page.orderBy (fun m : Uuid × Int => toLex (m.2, env.tie m.1)) (mappingsOf db c) := by
    refine Page.eq_orderBy ?_ ?_
    · have hnodup := (Page.orderBy_perm.map Prod.fst).nodup_iff.1 (@nodup_channelIds env db c)
      refine (List.perm_ext_iff_of_nodup (List.Nodup.of_map Prod.fst (hfst.symm ▸ hl)) (hnodup.of_map _)).2 fun m => ?_
      rw [mem_mappingsOf_iff, h, place_eq_some hl, List.mem_map]
      constructor
      · rintro ⟨⟨ch, n⟩, hn, rfl⟩
        exact ⟨n, List.mem_zipIdx_iff_getElem?.1 hn, rfl⟩
      · rintro ⟨n, hn, hi⟩
        exact ⟨(m.1, n), List.mem_zipIdx_iff_getElem?.2 hn, Prod.ext rfl hi.symm⟩
    · rw [List.pairwise_map, List.pairwise_iff_getElem]
      intro i j hi hj hij
      rw [List.getElem_zipIdx, List.getElem_zipIdx]
      refine Prod.Lex.toLex_lt_toLex.2 (.inl ?_)
      simpa using hij
  rw [channelIds, ← hplaces, hfst]

def Of (cat : SidebarCategory) (row : Uuid × CategoryRow) : Prop := bare cat = row.2.toCategory row.1 []

theorem Of.fields {cat : SidebarCategory} {row : Uuid × CategoryRow} (h : Of cat row) :
    cat.id = encodeMmId row.1 ∧ cat.userId = encodeMmId row.2.userId ∧ cat.teamId = encodeMmId row.2.teamId ∧
      Same cat row.2 := by
  unfold Of bare CategoryRow.toCategory at h
  rw [SidebarCategory.mk.injEq] at h
  obtain ⟨hid, hteam, huser, -, hname, hsorting, hmuted, hcollapsed, -⟩ := h
  exact ⟨hid, huser, hteam, hname, hsorting, hmuted, hcollapsed⟩

theorem map_bare_pushChannels {target : ChannelType → Option ℕ} {channels : List (Uuid × SidebarChannel)}
    {assignedIds : List Uuid} :
    (pushChannels target channels assignedIds cats).map bare = cats.map bare := by
  have hmodify (idx : ℕ) (id : Uuid) (cats : List SidebarCategory) :
      (cats.modify idx (pushChannel id)).map bare = cats.map bare := by
    induction cats generalizing idx with
    | nil => rw [List.modify_nil]
    | cons cat cats ih =>
      cases idx with
      | zero => rfl
      | succ idx => rw [List.modify_succ_cons, List.map_cons, List.map_cons, ih]
  induction channels generalizing assignedIds cats with
  | nil => rfl
  | cons c channels ih =>
    rw [pushChannels]
    split
    · exact ih
    · split
      · rw [ih, hmodify]
      · exact ih

theorem map_bare_categoriesOf (hlive : env.liveCategories db userId teamId ≠ []) :
    (env.categoriesOf db drawn userId teamId).categories.map bare =
      (sortCategoryRows (env.liveCategories db userId teamId)).map fun row => row.2.toCategory row.1 [] := by
  unfold categoriesOf
  dsimp only
  rw [if_neg fun h => hlive (List.isEmpty_iff.1 h)]
  dsimp only
  have hrows (rows : List (Uuid × CategoryRow)) :
      (rows.map fun row => row.2.toCategory row.1 (env.channelIds db row.1)).map bare =
        rows.map fun row => row.2.toCategory row.1 [] := by
    rw [List.map_map]
    rfl
  unfold backfillOrphanedChannels
  split
  · exact hrows _
  · rw [map_bare_pushChannels, hrows]

theorem exists_of_mem_channelIds (hcats : Rearranges (env.categoriesOf db drawn userId teamId).categories cats)
    {cat : SidebarCategory} (hcat : cat ∈ cats) {id : String} (hid : id ∈ cat.channelIds) :
    ∃ ch ∈ env.mapped db userId teamId ++ env.unmapped db userId teamId, id = encodeMmId ch := by
  have hmem := (hcats.channels.trans listed_perm).mem_iff.1 (List.mem_flatMap.2 ⟨cat, hcat, hid⟩)
  obtain ⟨ch, hch, rfl⟩ := List.mem_map.1 hmem
  exact ⟨ch, hch, rfl⟩

theorem exists_entry (hparse : ∀ id, env.parseUuid (encodeMmId id) = none)
    (hcats : Rearranges (env.categoriesOf db drawn userId teamId).categories cats) {ch : Uuid}
    (hch : ch ∈ env.mapped db userId teamId ++ env.unmapped db userId teamId) :
    ∃ cat ∈ cats, ch ∈ env.entryChannels cat := by
  have hmem := (hcats.channels.trans listed_perm).mem_iff.2 (List.mem_map_of_mem hch)
  obtain ⟨cat, hcat, hid⟩ := List.mem_flatMap.1 hmem
  exact ⟨cat, hcat, List.mem_filterMap.2 ⟨_, hid, parse_encode hparse ch⟩⟩

theorem map_entryChannels (hparse : ∀ id, env.parseUuid (encodeMmId id) = none)
    (hcats : Rearranges (env.categoriesOf db drawn userId teamId).categories cats) {cat : SidebarCategory}
    (hcat : cat ∈ cats) : (env.entryChannels cat).map encodeMmId = cat.channelIds :=
  map_filterMap_parse hparse fun id hid => by
    obtain ⟨ch, -, rfl⟩ := exists_of_mem_channelIds hcats hcat hid
    exact ⟨ch, rfl⟩

theorem assigned_of_nodup (h : (cats.map fun cat => env.categoryUuid cat.id).Nodup) {cat : SidebarCategory}
    (hcat : cat ∈ cats) : env.assigned cats (env.categoryUuid cat.id) = some (env.entryChannels cat) := by
  induction cats with
  | nil => exact absurd hcat List.not_mem_nil
  | cons first cats ih =>
    rw [List.map_cons] at h
    obtain ⟨hfirst, hrest⟩ := List.nodup_cons.1 h
    rw [assigned_cons]
    rcases List.mem_cons.1 hcat with rfl | hcat
    · have hnone : env.assigned cats (env.categoryUuid cat.id) = none := by
        rw [assigned, Option.map_eq_none_iff, List.find?_eq_none]
        intro cat' hcat' hid
        refine hfirst (List.mem_map.2 ⟨cat', List.mem_reverse.1 hcat', ?_⟩)
        simpa using hid
      rw [hnone, if_pos rfl, Option.none_or]
    · rw [ih hrest hcat, Option.some_or]

section Entries

variable (hparse : ∀ id, env.parseUuid (encodeMmId id) = none)
  (hbare : cats.map bare = (sortCategoryRows (env.liveCategories db userId teamId)).map
    fun row => row.2.toCategory row.1 [])

include hbare

theorem exists_row {cat : SidebarCategory} (hcat : cat ∈ cats) :
    ∃ row ∈ env.liveCategories db userId teamId, Of cat row := by
  have hmem : bare cat ∈ (sortCategoryRows (env.liveCategories db userId teamId)).map
      fun row => row.2.toCategory row.1 [] := hbare ▸ List.mem_map_of_mem hcat
  obtain ⟨row, hrow, heq⟩ := List.mem_map.1 hmem
  exact ⟨row, sortCategoryRows_perm.mem_iff.1 hrow, heq.symm⟩

theorem exists_cat {row : Uuid × CategoryRow} (hrow : row ∈ env.liveCategories db userId teamId) :
    ∃ cat ∈ cats, Of cat row := by
  have hmem : row.2.toCategory row.1 [] ∈ cats.map bare := by
    rw [hbare]
    exact List.mem_map_of_mem (sortCategoryRows_perm.mem_iff.2 hrow)
  obtain ⟨cat, hcat, heq⟩ := List.mem_map.1 hmem
  exact ⟨cat, hcat, heq⟩

include hparse

theorem map_categoryUuid : cats.map (fun cat => env.categoryUuid cat.id) =
    (sortCategoryRows (env.liveCategories db userId teamId)).map Prod.fst := by
  have hids := congrArg (List.map fun cat : SidebarCategory => env.categoryUuid cat.id) hbare
  rw [List.map_map, List.map_map] at hids
  refine hids.trans (List.map_congr_left fun row _ => ?_)
  exact categoryUuid_encode hparse row.1

theorem nodup_categoryUuid : (cats.map fun cat => env.categoryUuid cat.id).Nodup := by
  rw [map_categoryUuid hparse hbare]
  exact (sortCategoryRows_perm.map _).nodup_iff.2 nodup_liveCategories

end Entries

/-! ### The update -/

theorem map_eq_map_of {α β γ δ : Type} {f : α → γ} {g : β → γ} {f' : α → δ} {g' : β → δ} {l : List α} {l' : List β}
    (h : l.map f = l'.map g) (hfg : ∀ a ∈ l, ∀ b ∈ l', f a = g b → f' a = g' b) : l.map f' = l'.map g' := by
  induction l generalizing l' with
  | nil => rw [List.map_eq_nil_iff.1 h.symm, List.map_nil, List.map_nil]
  | cons a l ih =>
    cases l' with
    | nil => cases h
    | cons b l' =>
      obtain ⟨hab, hrest⟩ := List.cons.inj h
      rw [List.map_cons, List.map_cons, hfg a List.mem_cons_self b List.mem_cons_self hab,
        ih hrest fun a ha b hb => hfg a (List.mem_cons_of_mem _ ha) b (List.mem_cons_of_mem _ hb)]

theorem mem_channels_of_listed (hch : c ∈ env.mapped db userId teamId ++ env.unmapped db userId teamId) :
    c ∈ db.channels := by
  rcases List.mem_append.1 hch with hch | hch
  · obtain ⟨category, -, hmapping⟩ := mem_mapped.1 hch
    exact (db.mappings_exist _ hmapping).2
  · obtain ⟨channel, hchannel, rfl⟩ := List.mem_map.1 (List.mem_filter.1 hch).1
    rw [← AList.lookup_isSome, (mem_candidates.1 hchannel).1]
    rfl

theorem accepts_of_rearranges (hparse : ∀ id, env.parseUuid (encodeMmId id) = none)
    (hmember : IsTeamMember db userId teamId) (hlive : env.liveCategories db userId teamId ≠ [])
    (hcats : Rearranges (env.categoriesOf db drawn userId teamId).categories cats)
    (hnodup : ∀ cat ∈ cats, cat.channelIds.Nodup) : env.Accepts db userId teamId cats := by
  have hbare := hcats.bare.trans (map_bare_categoriesOf hlive)
  refine ⟨hmember, fun cat hcat => ?_⟩
  obtain ⟨row, hrow, hof⟩ := exists_row hbare hcat
  obtain ⟨hlookup, huser, hteam, -⟩ := mem_liveCategories.1 hrow
  obtain ⟨hid, hcatUser, hcatTeam, hfields⟩ := hof.fields
  have hchannels := map_entryChannels hparse hcats hcat
  exact
    { user := by rw [hcatUser, parse_encode hparse, huser]
      team := by rw [hcatTeam, parse_encode hparse, hteam]
      fits := by
        have hfits := row.2.fits
        rw [hfields.displayName, hfields.sorting]
        simp only [Bool.and_eq_true] at hfits ⊢
        exact ⟨hfits.1.2, hfits.2⟩
      parsed := fun id hid => by
        obtain ⟨ch, -, rfl⟩ := exists_of_mem_channelIds hcats hcat hid
        rw [parse_encode hparse]
        rfl
      category := fun _ => by
        rw [hid, categoryUuid_encode hparse, ← AList.lookup_isSome, hlookup]
        rfl
      channels := fun ch hch => by
        have hmem : encodeMmId ch ∈ cat.channelIds := hchannels ▸ List.mem_map_of_mem hch
        obtain ⟨ch', hlisted, heq⟩ := exists_of_mem_channelIds hcats hcat hmem
        rw [encodeMmId_injective heq]
        exact mem_channels_of_listed hlisted
      nodup := List.Nodup.of_map encodeMmId (hchannels ▸ hnodup cat hcat) }

theorem nodup_of_accepts (hparse : ∀ id, env.parseUuid (encodeMmId id) = none)
    (hcats : Rearranges (env.categoriesOf db drawn userId teamId).categories cats)
    (h : env.Accepts db userId teamId cats) : ∀ cat ∈ cats, cat.channelIds.Nodup := by
  intro cat hcat
  rw [← map_entryChannels hparse hcats hcat]
  exact (h.2 cat hcat).nodup.map encodeMmId_injective

/-! ### The next answer -/

theorem getCategories_eq_ok :
    env.getCategories db drawn userId teamId = .ok answer ↔
      IsTeamMember db userId teamId ∧ answer = env.categoriesOf db drawn userId teamId := by
  simp only [getCategories, map_eq_ok, ensureTeamMember_eq_ok, exists_const]
  exact and_congr_right fun _ => eq_comm

theorem isTeamMember_congr (h : db.SameMembers db') :
    IsTeamMember db' userId teamId ↔ IsTeamMember db userId teamId := by
  rw [IsTeamMember, IsTeamMember, h.teams, h.teamMembers]

theorem candidates_congr (h : db.SameMembers db') :
    env.sidebarCandidateChannels db' userId teamId = env.sidebarCandidateChannels db userId teamId := by
  unfold sidebarCandidateChannels
  rw [h.channels, h.channelMembers]

theorem returns_of_accepts (hparse : ∀ id, env.parseUuid (encodeMmId id) = none)
    (hlive : env.liveCategories db userId teamId ≠ [])
    (hcats : Rearranges (env.categoriesOf db drawn userId teamId).categories cats)
    (h : env.Accepts db userId teamId cats) : Returns env db userId teamId now next cats := by
  have hbare := hcats.bare.trans (map_bare_categoriesOf hlive)
  obtain ⟨db', hok, hsame, hrows, hmap⟩ := updateCategories_spec h now
  set sorted := sortCategoryRows (env.liveCategories db userId teamId) with hsorted
  -- the entry for a stored category says what its row has
  have hentry : ∀ row ∈ env.liveCategories db userId teamId, ∀ cat ∈ cats, env.categoryUuid cat.id = row.1 →
      Same cat row.2 := by
    intro row hrow cat hcat hid
    obtain ⟨row', hrow', hof⟩ := exists_row hbare hcat
    obtain ⟨hid', -, -, hfields⟩ := hof.fields
    rw [hid', categoryUuid_encode hparse] at hid
    have hlookup := (mem_liveCategories.1 hrow').1
    rw [hid, (mem_liveCategories.1 hrow).1] at hlookup
    rw [Option.some.inj hlookup]
    exact hfields
  have hnamed : ∀ row ∈ env.liveCategories db userId teamId, ∃ cat ∈ cats, env.categoryUuid cat.id = row.1 := by
    intro row hrow
    obtain ⟨cat, hcat, hof⟩ := exists_cat hbare hrow
    exact ⟨cat, hcat, by rw [hof.fields.1, categoryUuid_encode hparse]⟩
  have hedited : ∀ row ∈ env.liveCategories db userId teamId,
      cats.foldl (env.editRow userId teamId now row.1) row.2 = { row.2 with updateAt := now } := by
    intro row hrow
    obtain ⟨-, huser, hteam, -⟩ := mem_liveCategories.1 hrow
    exact foldl_editRow_of_same huser hteam (hentry row hrow) (hnamed row hrow)
  have hlive' : env.liveCategories db' userId teamId = (env.liveCategories db userId teamId).map (touch now) := by
    refine liveCategories_touch fun id row' => ?_
    rw [hrows]
    constructor
    · rintro ⟨hrow', hshown⟩
      obtain ⟨row, hrow, rfl⟩ := Option.map_eq_some_iff.1 hrow'
      obtain ⟨huser, hteam, hdelete⟩ := @foldl_editRow_owner env userId teamId now cats row id
      rw [huser, hteam, hdelete] at hshown
      have hmem : (id, row) ∈ env.liveCategories db userId teamId := mem_liveCategories.2 ⟨hrow, hshown⟩
      exact ⟨row, hmem, hedited _ hmem⟩
    · rintro ⟨row, hrow, rfl⟩
      obtain ⟨hlookup, hshown⟩ := mem_liveCategories.1 hrow
      refine ⟨?_, hshown⟩
      rw [hlookup, Option.map_some, hedited _ hrow]
  -- its channels are those of the entry
  have hplaced : ∀ cat ∈ cats, env.channelIds db' (env.categoryUuid cat.id) = env.entryChannels cat := by
    intro cat hcat
    refine channelIds_of_place (h.2 cat hcat).nodup fun ch => ?_
    rw [hmap, assigned_of_nodup (nodup_categoryUuid hparse hbare) hcat, Option.elim_some]
  have hall : ∀ channel ∈ env.sidebarCandidateChannels db' userId teamId,
      channel.1 ∈ (sorted.map (touch now)).flatMap fun row => env.channelIds db' row.1 := by
    intro channel hchannel
    rw [candidates_congr hsame] at hchannel
    have hlisted : channel.1 ∈ env.mapped db userId teamId ++ env.unmapped db userId teamId := by
      rw [List.mem_append]
      by_cases hmapped : channel.1 ∈ env.mapped db userId teamId
      · exact .inl hmapped
      · exact .inr (List.mem_filter.2 ⟨List.mem_map_of_mem hchannel, by simpa using hmapped⟩)
    obtain ⟨cat, hcat, hch⟩ := exists_entry hparse hcats hlisted
    obtain ⟨row, hrow, hof⟩ := exists_row hbare hcat
    have hid := hof.fields.1
    refine List.mem_flatMap.2 ⟨touch now row, List.mem_map_of_mem (sortCategoryRows_perm.mem_iff.2 hrow), ?_⟩
    have hch' := hplaced cat hcat
    rw [hid, categoryUuid_encode hparse] at hch'
    show channel.1 ∈ env.channelIds db' row.1
    rwa [hch']
  refine ⟨db', _, _, hok, getCategories_eq_ok.2 ⟨(isTeamMember_congr hsame).2 h.1, rfl⟩, ?_⟩
  have hanswer : (env.categoriesOf db' next userId teamId).categories =
      (sorted.map (touch now)).map fun row => row.2.toCategory row.1 (env.channelIds db' row.1) := by
    unfold categoriesOf
    dsimp only
    rw [hlive', if_neg fun hnil => hlive (List.map_eq_nil_iff.1 (List.isEmpty_iff.1 hnil)), sortCategoryRows_touch]
    dsimp only
    unfold backfillOrphanedChannels
    split
    · rfl
    · exact pushChannels_of_assigned hall
  rw [hanswer, List.map_map, List.map_map]
  refine (map_eq_map_of hbare fun cat hcat row _ hof => ?_).symm
  have hid : cat.id = encodeMmId row.1 := (show Of cat row from hof).fields.1
  refine Prod.ext hid ?_
  have hch := hplaced cat hcat
  rw [hid, categoryUuid_encode hparse] at hch
  show cat.channelIds = (env.channelIds db' row.1).map encodeMmId
  rw [hch, map_entryChannels hparse hcats hcat]

theorem categoriesOf_default (hlive : env.liveCategories db userId teamId = []) :
    (env.categoriesOf db drawn userId teamId).categories.map (fun cat => cat.id) = [encodeMmId drawn.id] := by
  unfold categoriesOf
  dsimp only
  rw [if_pos (List.isEmpty_iff.2 hlive)]
  rfl

theorem not_returns_of_default (hlive : env.liveCategories db userId teamId = []) (hdrawn : drawn.id ≠ next.id)
    (hcats : Rearranges (env.categoriesOf db drawn userId teamId).categories cats) :
    ¬ Returns env db userId teamId now next cats := by
  rintro ⟨db', out, answer, hok, hanswer, hreturned⟩
  obtain ⟨db'', hok', -, hrows, -⟩ := updateCategories_spec (accepts_of_ok hok) now
  obtain rfl : db' = db'' := (Prod.mk.inj (Except.ok.inj (hok.symm.trans hok'))).1
  have hlive' : env.liveCategories db' userId teamId = [] := by
    refine List.eq_nil_iff_forall_not_mem.2 fun row hrow => ?_
    have hshown : Live db' userId teamId row.1 := (live_iff_mem env).2 ⟨row.2, hrow⟩
    obtain ⟨row', hrow'⟩ := (live_iff_mem env).1
      ((live_congr hrows fun id row _ => foldl_editRow_owner cats row id).1 hshown)
    rw [hlive] at hrow'
    exact List.not_mem_nil hrow'
  obtain ⟨-, rfl⟩ := getCategories_eq_ok.1 hanswer
  have hids : cats.map (fun cat => cat.id) = [encodeMmId drawn.id] := by
    have hbare := congrArg (List.map fun cat : SidebarCategory => cat.id) hcats.bare
    rw [List.map_map, List.map_map] at hbare
    exact hbare.trans (categoriesOf_default hlive)
  have hnext := congrArg (List.map Prod.fst) hreturned
  rw [List.map_map, List.map_map] at hnext
  have hsame : [encodeMmId next.id] = [encodeMmId drawn.id] :=
    (categoriesOf_default hlive').symm.trans (hnext.trans hids)
  exact hdrawn (encodeMmId_injective (List.cons.inj hsame).1).symm

/-- An arrangement comes back exactly if some category of the user in the team is stored and no category lists a
channel twice. -/
theorem returns_iff (env : SidebarEnv) (hparse : ∀ id, env.parseUuid (encodeMmId id) = none) (db : SidebarDb)
    (userId teamId : Uuid) (now : Int) (drawn next : CategoryDraw) (hdrawn : drawn.id ≠ next.id)
    (answer : SidebarCategories) (hanswer : env.getCategories db drawn userId teamId = .ok answer)
    (cats : List SidebarCategory) (hcats : Rearranges answer.categories cats) :
    Returns env db userId teamId now next cats ↔
      (∃ c, Live db userId teamId c) ∧ ∀ cat ∈ cats, cat.channelIds.Nodup := by
  obtain ⟨hmember, rfl⟩ := getCategories_eq_ok.1 hanswer
  constructor
  · intro hreturns
    have hlive : env.liveCategories db userId teamId ≠ [] :=
      fun hnil => not_returns_of_default hnil hdrawn hcats hreturns
    obtain ⟨row, hrow⟩ := List.exists_mem_of_ne_nil _ hlive
    obtain ⟨db', out, next', hok, -⟩ := hreturns
    exact ⟨⟨row.1, (live_iff_mem env).2 ⟨row.2, hrow⟩⟩, nodup_of_accepts hparse hcats (accepts_of_ok hok)⟩
  · rintro ⟨⟨c, hshown⟩, hnodup⟩
    obtain ⟨row, hrow⟩ := (live_iff_mem env).1 hshown
    have hlive := List.ne_nil_of_mem hrow
    exact returns_of_accepts hparse hlive hcats (accepts_of_rearranges hparse hmember hlive hcats hnodup)

/-- The user `1` is in the channel `5` of the team `3`, and has no categories. -/
def noCategories : SidebarDb where
  teams := [3]
  teamMembers := [(3, 1)]
  channels := (∅ : Assoc Uuid SidebarChannel).insert 5 ⟨3, .Public, "general", none, false⟩
  channelMembers := (∅ : Assoc (Uuid × Uuid) Unit).insert (5, 1) ()
  categories := ∅
  mappings := ∅
  members_exist m hm := by
    rcases (AList.mem_insert _).1 hm with rfl | hm
    · decide
    · exact absurd hm (by simp)
  mappings_exist _ hm := absurd hm (by simp)

/-- The made-up category is sent back as it was answered. -/
theorem loses_default_category : ∃ answer, SidebarIsolation.plainEnv.getCategories noCategories ⟨7, 0⟩ 1 3 = .ok answer ∧
    Rearranges answer.categories answer.categories ∧
      ¬ Returns SidebarIsolation.plainEnv noCategories 1 3 0 ⟨8, 0⟩ answer.categories := by
  have hcats : Rearranges (SidebarIsolation.plainEnv.categoriesOf noCategories ⟨7, 0⟩ 1 3).categories
      (SidebarIsolation.plainEnv.categoriesOf noCategories ⟨7, 0⟩ 1 3).categories := ⟨rfl, .refl _⟩
  exact ⟨_, getCategories_eq_ok.2 ⟨⟨by decide, by decide⟩, rfl⟩, hcats,
    not_returns_of_default rfl (by decide) hcats⟩

/-- The user `1` has a category in the team `3`, with no channels in it. -/
def oneCategory : SidebarDb :=
  { noCategories with
    categories := (∅ : Assoc Uuid CategoryRow).insert 9
      ⟨3, 1, "custom", "Mine", "alpha", false, false, 0, 0, 0, 0, SidebarIsolation.fits_mine⟩
    mappings_exist := fun _ hm => absurd hm (by simp [noCategories]) }

theorem oneCategory_returns : ∃ answer, SidebarIsolation.plainEnv.getCategories oneCategory ⟨7, 0⟩ 1 3 = .ok answer ∧
    Returns SidebarIsolation.plainEnv oneCategory 1 3 0 ⟨8, 0⟩ answer.categories := by
  have hparse (id : Uuid) : SidebarIsolation.plainEnv.parseUuid (encodeMmId id) = none := by
    rw [SidebarIsolation.parseUuid_plainEnv, ofHyphenated_encodeMmId]
  refine ⟨_, getCategories_eq_ok.2 ⟨⟨by decide, by decide⟩, rfl⟩, ?_⟩
  refine (returns_iff SidebarIsolation.plainEnv hparse oneCategory 1 3 0 ⟨7, 0⟩ ⟨8, 0⟩ (by decide) _
    (getCategories_eq_ok.2 ⟨⟨by decide, by decide⟩, rfl⟩) _ ⟨rfl, .refl _⟩).2 ⟨⟨9, _, rfl, rfl, rfl, rfl⟩, ?_⟩
  decide +kernel

end Rustchat.SidebarRoundTrip
