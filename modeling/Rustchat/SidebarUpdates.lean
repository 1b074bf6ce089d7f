import Rustchat.SidebarCategories

/-!
# What an update of the sidebar categories writes

`update_categories` goes through the entries of its body. It succeeds exactly if it accepts every entry (`Accepts`):
its writes never keep it from accepting a later one. Of the entries for one category the last one counts
(`updateCategories_spec`).
-/

namespace Rustchat

structure SidebarDb.SameMembers (db db' : SidebarDb) : Prop where
  teams : db'.teams = db.teams
  teamMembers : db'.teamMembers = db.teamMembers
  channels : db'.channels = db.channels
  channelMembers : db'.channelMembers = db.channelMembers

namespace SidebarDb.SameMembers

variable {db db' db'' : SidebarDb}

theorem refl : db.SameMembers db := ⟨rfl, rfl, rfl, rfl⟩

theorem trans (h : db.SameMembers db') (h' : db'.SameMembers db'') : db.SameMembers db'' :=
  ⟨h'.teams.trans h.teams, h'.teamMembers.trans h.teamMembers, h'.channels.trans h.channels,
    h'.channelMembers.trans h.channelMembers⟩

end SidebarDb.SameMembers

namespace SidebarEnv

open SidebarDb

variable (env : SidebarEnv)

def entryChannels (cat : SidebarCategory) : List Uuid := cat.channelIds.filterMap env.parse

/-- An entry that a request of `userId` for `teamId` may have. -/
structure AcceptsEntry (db : SidebarDb) (userId teamId : Uuid) (cat : SidebarCategory) : Prop where
  user : env.parse cat.userId = some userId
  team : env.parse cat.teamId = some teamId
  fits : (fitsColumn 64 cat.displayName && fitsColumn 32 cat.sorting) = true
  parsed : ∀ id ∈ cat.channelIds, (env.parse id).isSome
  category : env.entryChannels cat ≠ [] → env.categoryUuid cat.id ∈ db.categories
  channels : ∀ ch ∈ env.entryChannels cat, ch ∈ db.channels
  nodup : (env.entryChannels cat).Nodup

def IsTeamMember (db : SidebarDb) (userId teamId : Uuid) : Prop :=
  teamId ∈ db.teams ∧ (teamId, userId) ∈ db.teamMembers

def Accepts (db : SidebarDb) (userId teamId : Uuid) (cats : List SidebarCategory) : Prop :=
  IsTeamMember db userId teamId ∧ ∀ cat ∈ cats, env.AcceptsEntry db userId teamId cat

/-- The channels that the last entry for a category gives it. -/
def assigned (cats : List SidebarCategory) (id : Uuid) : Option (List Uuid) :=
  (cats.reverse.find? fun cat => env.categoryUuid cat.id = id).map env.entryChannels

/-- The place of a channel among those that are assigned. -/
def place (channels : List Uuid) (channelId : Uuid) : Option Int :=
  if channelId ∈ channels then some (channels.idxOf channelId) else none

def answered (userId teamId : Uuid) (cat : SidebarCategory) : SidebarCategory :=
  { cat with id := encodeMmId (env.categoryUuid cat.id), userId := encodeMmId userId, teamId := encodeMmId teamId,
             sortOrder := 0, channelIds := (env.entryChannels cat).map encodeMmId }

def editRow (userId teamId : Uuid) (now : Int) (id : Uuid) (row : CategoryRow) (cat : SidebarCategory) : CategoryRow :=
  if h : (fitsColumn 64 cat.displayName && fitsColumn 32 cat.sorting) = true then
    if env.categoryUuid cat.id = id ∧ row.userId = userId ∧ row.teamId = teamId then
      row.edit cat.displayName cat.sorting cat.muted cat.collapsed now h
    else row
  else row

variable {env} {db db' : SidebarDb} {userId teamId c : Uuid} {cat : SidebarCategory} {cats : List SidebarCategory}
  {now : Int} {i : ℕ} {ids : List String} {l : List Uuid}

theorem ensureTeamMember_eq_ok {u : Unit} :
    db.ensureTeamMember userId teamId = .ok u ↔ IsTeamMember db userId teamId := by
  simp only [ensureTeamMember, bind_eq_ok, ensure_eq_ok, exists_and_left, IsTeamMember]
  simp

theorem ensureSame_eq_ok {id invalid mismatch : String} {expected : Uuid} {u : Unit} :
    env.ensureSame id expected invalid mismatch = .ok u ↔ env.parse id = some expected := by
  simp only [ensureSame, bind_eq_ok, okOr_eq_ok, ensure_eq_ok]
  constructor
  · rintro ⟨parsed, h, rfl⟩
    exact h
  · exact fun h => ⟨expected, h, rfl⟩

theorem insertMapping_eq_ok {ch : Uuid} {k : Int} (h : db.insertMapping c ch k = .ok db') :
    (c ∈ db.categories ∧ ch ∈ db.channels ∧ (c, ch) ∉ db.mappings) ∧ db.SameMembers db' ∧
      db'.categories = db.categories ∧ db'.mappings = db.mappings.insert (c, ch) k := by
  unfold insertMapping at h
  split at h
  · next hc =>
    rw [← Except.ok.inj h]
    exact ⟨hc, ⟨rfl, rfl, rfl, rfl⟩, rfl, rfl⟩
  · cases h

theorem exists_insertMapping {ch : Uuid} (k : Int) (hc : c ∈ db.categories) (hch : ch ∈ db.channels)
    (hnew : (c, ch) ∉ db.mappings) : ∃ db', db.insertMapping c ch k = .ok db' :=
  ⟨_, dif_pos ⟨hc, hch, hnew⟩⟩

theorem of_insertMappings (h : env.insertMappings c i ids db = .ok (db', l)) :
    (∀ id ∈ ids, (env.parse id).isSome) ∧ l = ids.filterMap env.parse ∧ (l ≠ [] → c ∈ db.categories) ∧
      (∀ ch ∈ l, ch ∈ db.channels ∧ (c, ch) ∉ db.mappings) ∧ l.Nodup := by
  induction ids generalizing i db l with
  | nil =>
    obtain ⟨rfl, rfl⟩ := Prod.mk.inj (Except.ok.inj h)
    simp
  | cons id ids ih =>
    simp only [insertMappings, bind_eq_ok, okOr_eq_ok, map_eq_ok] at h
    obtain ⟨ch, hparse, db₁, hinsert, ⟨db₂, l'⟩, hrest, heq⟩ := h
    obtain ⟨rfl, rfl⟩ := Prod.mk.inj heq
    obtain ⟨⟨hc, hch, hnew⟩, hsame, hcats, hmap⟩ := insertMapping_eq_ok hinsert
    obtain ⟨hparsed, rfl, -, hchannels, hnodup⟩ := ih hrest
    refine ⟨?_, ?_, fun _ => hc, ?_, ?_⟩
    · intro id' hid'
      rcases List.mem_cons.1 hid' with rfl | hid'
      · rw [hparse]
        rfl
      · exact hparsed id' hid'
    · rw [List.filterMap_cons_some hparse]
    · intro ch' hch'
      rcases List.mem_cons.1 hch' with rfl | hch'
      · exact ⟨hch, hnew⟩
      · obtain ⟨hex, hnot⟩ := hchannels ch' hch'
        rw [hmap, AList.mem_insert, not_or] at hnot
        exact ⟨hsame.channels ▸ hex, hnot.2⟩
    · refine List.nodup_cons.2 ⟨fun hmem => ?_, hnodup⟩
      refine (hchannels ch hmem).2 ?_
      rw [hmap]
      exact (AList.mem_insert _).2 (.inl rfl)

theorem insertMappings_spec (c : Uuid) (i : ℕ) (db : SidebarDb) (hparsed : ∀ id ∈ ids, (env.parse id).isSome)
    (hc : ids.filterMap env.parse ≠ [] → c ∈ db.categories)
    (hchannels : ∀ ch ∈ ids.filterMap env.parse, ch ∈ db.channels ∧ (c, ch) ∉ db.mappings)
    (hnodup : (ids.filterMap env.parse).Nodup) :
    ∃ db', env.insertMappings c i ids db = .ok (db', ids.filterMap env.parse) ∧ db.SameMembers db' ∧
      db'.categories = db.categories ∧ ∀ m : Uuid × Uuid, db'.mappings.lookup m =
        if m.1 = c ∧ m.2 ∈ ids.filterMap env.parse then some ((i + (ids.filterMap env.parse).idxOf m.2 : ℕ) : Int)
        else db.mappings.lookup m := by
  induction ids generalizing i db with
  | nil => exact ⟨db, rfl, .refl, rfl, fun m => by simp⟩
  | cons id ids ih =>
    obtain ⟨ch, hparse⟩ := Option.isSome_iff_exists.1 (hparsed id List.mem_cons_self)
    rw [List.filterMap_cons_some hparse] at hc hchannels hnodup ⊢
    obtain ⟨hnotin, hnodup⟩ := List.nodup_cons.1 hnodup
    obtain ⟨hch, hnew⟩ := hchannels ch List.mem_cons_self
    have hcat := hc (List.cons_ne_nil _ _)
    obtain ⟨db₁, hinsert⟩ := exists_insertMapping (i : Int) hcat hch hnew
    obtain ⟨-, hsame, hcats, hmap⟩ := insertMapping_eq_ok hinsert
    obtain ⟨db₂, hrest, hsame', hcats', hmap'⟩ := ih (i + 1) db₁
      (fun id hid => hparsed id (List.mem_cons_of_mem _ hid)) (fun _ => hcats ▸ hcat)
      (fun ch' hch' => by
        obtain ⟨hex, hnot⟩ := hchannels ch' (List.mem_cons_of_mem _ hch')
        rw [hmap, AList.mem_insert, not_or, hsame.channels]
        exact ⟨hex, fun he => hnotin ((Prod.mk.inj he).2 ▸ hch'), hnot⟩) hnodup
    refine ⟨db₂, ?_, hsame.trans hsame', hcats'.trans hcats, fun m => ?_⟩
    · rw [insertMappings, hparse]
      simp only [okOr, Option.elim_some, Except.bind, hinsert, hrest, Except.map]
    · rw [hmap', hmap, Assoc.lookup_insert_eq]
      obtain ⟨c', ch'⟩ := m
      dsimp only
      by_cases hc' : c' = c
      · subst hc'
        by_cases he : ch' = ch
        · subst he
          simp [hnotin]
        · by_cases hmem : ch' ∈ ids.filterMap env.parse
          · rw [if_pos ⟨rfl, hmem⟩, if_pos ⟨rfl, List.mem_cons_of_mem _ hmem⟩, List.idxOf_cons_ne _ (Ne.symm he)]
            congr 1
            push_cast
            omega
          · simp [he, hmem]
      · simp [hc']

theorem lookup_editCategory {f : CategoryRow → CategoryRow} {id : Uuid} :
    (db.editCategory c userId teamId f).categories.lookup id = (db.categories.lookup id).map fun row =>
      if c = id ∧ row.userId = userId ∧ row.teamId = teamId then f row else row := by
  unfold editCategory
  dsimp only
  rw [Assoc.lookup_modify]
  by_cases hid : id = c
  · subst hid
    simp
  · simp [hid, Ne.symm hid]

theorem acceptsEntry_of_ok {out : SidebarDb × SidebarCategory}
    (h : env.updateEntry userId teamId now db cat = .ok out) : env.AcceptsEntry db userId teamId cat := by
  simp only [updateEntry, bind_eq_ok, ensureSame_eq_ok] at h
  obtain ⟨-, huser, -, hteam, h⟩ := h
  split at h
  · next hfits =>
    obtain ⟨⟨db', l⟩, hinsert, -⟩ := map_eq_ok.1 h
    obtain ⟨hparsed, rfl, hcat, hchannels, hnodup⟩ := of_insertMappings hinsert
    exact ⟨huser, hteam, hfits, hparsed, fun hne => Assoc.mem_modify.1 (hcat hne), fun ch hch => (hchannels ch hch).1,
      hnodup⟩
  · cases h

theorem updateEntry_spec (h : env.AcceptsEntry db userId teamId cat) (now : Int) :
    ∃ db', env.updateEntry userId teamId now db cat = .ok (db', env.answered userId teamId cat) ∧ db.SameMembers db' ∧
      (∀ id, db'.categories.lookup id = (db.categories.lookup id).map fun row =>
        env.editRow userId teamId now id row cat) ∧
      ∀ m : Uuid × Uuid, db'.mappings.lookup m =
        if m.1 = env.categoryUuid cat.id then place (env.entryChannels cat) m.2 else db.mappings.lookup m := by
  obtain ⟨db', hinsert, hsame, hcats, hmap⟩ := insertMappings_spec (env.categoryUuid cat.id) 0
    ((db.editCategory (env.categoryUuid cat.id) userId teamId fun row =>
      row.edit cat.displayName cat.sorting cat.muted cat.collapsed now h.fits).clearMappings (env.categoryUuid cat.id))
    h.parsed (fun hne => Assoc.mem_modify.2 (h.category hne))
    (fun ch hch => ⟨h.channels ch hch, fun hm => by simpa using (Assoc.mem_eraseWhere.1 hm).1⟩) h.nodup
  refine ⟨db', ?_, ?_, fun id => ?_, fun m => ?_⟩
  · simp only [updateEntry, ensureSame, h.user, h.team, okOr, Option.elim_some, Except.bind, ensure, if_true]
    rw [dif_pos h.fits, hinsert]
    rfl
  · exact ⟨hsame.teams, hsame.teamMembers, hsame.channels, hsame.channelMembers⟩
  · rw [hcats]
    refine lookup_editCategory.trans (Option.map_congr fun row _ => ?_)
    rw [editRow, dif_pos h.fits]
  · rw [hmap]
    have hleft : ((db.editCategory (env.categoryUuid cat.id) userId teamId fun row =>
        row.edit cat.displayName cat.sorting cat.muted cat.collapsed now h.fits).clearMappings
          (env.categoryUuid cat.id)).mappings.lookup m =
        if m.1 = env.categoryUuid cat.id then none else db.mappings.lookup m := by
      refine Assoc.lookup_eraseWhere.trans ?_
      simp only [decide_eq_true_eq]
      rfl
    rw [hleft, place, entryChannels, Nat.zero_add]
    by_cases hm : m.1 = env.categoryUuid cat.id
    · rw [if_pos hm, if_pos hm]
      exact if_congr (and_iff_right hm) rfl rfl
    · rw [if_neg hm, if_neg hm, if_neg fun h => hm h.1]

/-! ### A request -/

theorem AcceptsEntry.congr (h : env.AcceptsEntry db userId teamId cat) (hcats : ∀ id, id ∈ db.categories → id ∈ db'.categories)
    (hsame : db'.channels = db.channels) : env.AcceptsEntry db' userId teamId cat :=
  { h with
    category := fun hne => hcats _ (h.category hne)
    channels := fun ch hch => hsame ▸ h.channels ch hch }

theorem mem_categories_iff {f : Uuid → CategoryRow → CategoryRow}
    (h : ∀ id, db'.categories.lookup id = (db.categories.lookup id).map (f id)) (id : Uuid) :
    id ∈ db'.categories ↔ id ∈ db.categories := by
  rw [← AList.lookup_isSome, ← AList.lookup_isSome, h, Option.isSome_map]

theorem assigned_cons (cat : SidebarCategory) (cats : List SidebarCategory) (id : Uuid) :
    env.assigned (cat :: cats) id =
      (env.assigned cats id).or (if env.categoryUuid cat.id = id then some (env.entryChannels cat) else none) := by
  unfold assigned
  rw [List.reverse_cons, List.find?_append, Option.map_or]
  by_cases h : env.categoryUuid cat.id = id
  · simp [h]
  · simp [h]

theorem updateEntries_spec (h : ∀ cat ∈ cats, env.AcceptsEntry db userId teamId cat) (now : Int) :
    ∃ db', env.updateEntries userId teamId now cats db = .ok (db', cats.map (env.answered userId teamId)) ∧
      db.SameMembers db' ∧
      (∀ id, db'.categories.lookup id = (db.categories.lookup id).map fun row =>
        cats.foldl (env.editRow userId teamId now id) row) ∧
      ∀ m : Uuid × Uuid, db'.mappings.lookup m =
        (env.assigned cats m.1).elim (db.mappings.lookup m) fun channels => place channels m.2 := by
  induction cats generalizing db with
  | nil => exact ⟨db, rfl, .refl, fun id => by simp, fun m => rfl⟩
  | cons cat cats ih =>
    obtain ⟨db₁, hfirst, hsame₁, hcats₁, hmap₁⟩ := updateEntry_spec (h cat List.mem_cons_self) now
    obtain ⟨db₂, hrest, hsame₂, hcats₂, hmap₂⟩ := ih fun cat' hcat' =>
      (h cat' (List.mem_cons_of_mem _ hcat')).congr (fun id => (mem_categories_iff hcats₁ id).2) hsame₁.channels
    refine ⟨db₂, ?_, hsame₁.trans hsame₂, fun id => ?_, fun m => ?_⟩
    · rw [updateEntries, hfirst, Except.bind, hrest]
      rfl
    · rw [hcats₂, hcats₁, Option.map_map]
      rfl
    · rw [hmap₂, hmap₁, assigned_cons]
      cases env.assigned cats m.1 with
      | some channels => rfl
      | none =>
        rw [Option.none_or, Option.elim_none]
        by_cases hm : m.1 = env.categoryUuid cat.id
        · rw [if_pos hm, if_pos hm.symm, Option.elim_some]
        · rw [if_neg hm, if_neg (Ne.symm hm), Option.elim_none]

theorem acceptsEntries_of_ok {out : SidebarDb × List SidebarCategory}
    (h : env.updateEntries userId teamId now cats db = .ok out) :
    ∀ cat ∈ cats, env.AcceptsEntry db userId teamId cat := by
  induction cats generalizing db out with
  | nil => exact fun _ hcat => absurd hcat List.not_mem_nil
  | cons cat cats ih =>
    obtain ⟨first, hfirst, hrest⟩ := bind_eq_ok.1 h
    obtain ⟨rest, hrest, -⟩ := map_eq_ok.1 hrest
    have haccepts := acceptsEntry_of_ok hfirst
    obtain ⟨db₁, hfirst', hsame, hcats, -⟩ := updateEntry_spec haccepts now
    obtain rfl : first = (db₁, env.answered userId teamId cat) := Except.ok.inj (hfirst.symm.trans hfirst')
    intro cat' hcat'
    rcases List.mem_cons.1 hcat' with rfl | hcat'
    · exact haccepts
    · exact (ih hrest cat' hcat').congr (fun id => (mem_categories_iff hcats id).1) hsame.channels.symm

theorem updateCategories_spec (h : env.Accepts db userId teamId cats) (now : Int) :
    ∃ db', env.updateCategories db now userId teamId cats = .ok (db', cats.map (env.answered userId teamId)) ∧
      db.SameMembers db' ∧
      (∀ id, db'.categories.lookup id = (db.categories.lookup id).map fun row =>
        cats.foldl (env.editRow userId teamId now id) row) ∧
      ∀ m : Uuid × Uuid, db'.mappings.lookup m =
        (env.assigned cats m.1).elim (db.mappings.lookup m) fun channels => place channels m.2 := by
  obtain ⟨db', hentries, hspec⟩ := updateEntries_spec h.2 now
  refine ⟨db', ?_, hspec⟩
  rw [updateCategories, (ensureTeamMember_eq_ok (u := ())).2 h.1]
  exact hentries

theorem accepts_of_ok {out : SidebarDb × List SidebarCategory}
    (h : env.updateCategories db now userId teamId cats = .ok out) : env.Accepts db userId teamId cats := by
  obtain ⟨_, hmember, hentries⟩ := bind_eq_ok.1 h
  exact ⟨ensureTeamMember_eq_ok.1 hmember, acceptsEntries_of_ok hentries⟩

/-- The tables after a request: an error rolls its transaction back. -/
def commit {α : Type} (db : SidebarDb) (result : Except AppError (SidebarDb × α)) : SidebarDb :=
  match result with
  | .ok written => written.1
  | .error _ => db

theorem commit_of_not_accepts (h : ¬ env.Accepts db userId teamId cats) :
    commit db (env.updateCategories db now userId teamId cats) = db := by
  cases hresult : env.updateCategories db now userId teamId cats with
  | error e => rfl
  | ok out => exact absurd (accepts_of_ok hresult) h

/-! ### The rows of categories -/

theorem editRow_owner (row : CategoryRow) (cat : SidebarCategory) (id : Uuid) :
    (env.editRow userId teamId now id row cat).userId = row.userId ∧
      (env.editRow userId teamId now id row cat).teamId = row.teamId ∧
      (env.editRow userId teamId now id row cat).deleteAt = row.deleteAt := by
  unfold editRow
  split
  · split <;> exact ⟨rfl, rfl, rfl⟩
  · exact ⟨rfl, rfl, rfl⟩

theorem foldl_editRow_owner (cats : List SidebarCategory) (row : CategoryRow) (id : Uuid) :
    (cats.foldl (env.editRow userId teamId now id) row).userId = row.userId ∧
      (cats.foldl (env.editRow userId teamId now id) row).teamId = row.teamId ∧
      (cats.foldl (env.editRow userId teamId now id) row).deleteAt = row.deleteAt := by
  induction cats generalizing row with
  | nil => exact ⟨rfl, rfl, rfl⟩
  | cons cat cats ih =>
    obtain ⟨huser, hteam, hdelete⟩ := @editRow_owner env userId teamId now row cat id
    obtain ⟨huser', hteam', hdelete'⟩ := ih (env.editRow userId teamId now id row cat)
    exact ⟨huser'.trans huser, hteam'.trans hteam, hdelete'.trans hdelete⟩

theorem foldl_editRow_of_foreign {row : CategoryRow} (id : Uuid) (h : ¬ (row.userId = userId ∧ row.teamId = teamId)) :
    cats.foldl (env.editRow userId teamId now id) row = row := by
  induction cats with
  | nil => rfl
  | cons cat cats ih =>
    have hrow : env.editRow userId teamId now id row cat = row := by
      unfold editRow
      split
      · exact if_neg fun hc => h hc.2
      · rfl
    rw [List.foldl_cons, hrow, ih]

end SidebarEnv
end Rustchat
