import Rustchat.SidebarUpdates

/-!
# Whose categories an update writes

`update_categories` edits only rows of the user and the team it is for, but it replaces the mappings of every category
that its body names. A request leaves the rows of others alone exactly if it is refused, or gives each category of
others that it names the channels that this has (`SidebarIsolation.isolated_iff`).
-/

namespace Rustchat.SidebarIsolation

open SidebarDb SidebarEnv

/-- A category of another user or another team. -/
def Foreign (db : SidebarDb) (userId teamId c : Uuid) : Prop :=
  ∃ row, db.categories.lookup c = some row ∧ ¬ (row.userId = userId ∧ row.teamId = teamId)

/-- The rows of the categories of others and of their channels are in both. -/
structure Isolated (userId teamId : Uuid) (db db' : SidebarDb) : Prop where
  categories : ∀ c, Foreign db userId teamId c ∨ Foreign db' userId teamId c →
    db'.categories.lookup c = db.categories.lookup c
  mappings : ∀ c, Foreign db userId teamId c ∨ Foreign db' userId teamId c →
    ∀ ch, db'.mappings.lookup (c, ch) = db.mappings.lookup (c, ch)

theorem Isolated.refl {userId teamId : Uuid} {db : SidebarDb} : Isolated userId teamId db db :=
  ⟨fun _ _ => rfl, fun _ _ _ => rfl⟩

variable {env : SidebarEnv} {db db' : SidebarDb} {userId teamId c : Uuid} {cats : List SidebarCategory} {now : Int}

theorem foreign_iff (h : ∀ id, db'.categories.lookup id = (db.categories.lookup id).map fun row =>
    cats.foldl (env.editRow userId teamId now id) row) : Foreign db' userId teamId c ↔ Foreign db userId teamId c := by
  unfold Foreign
  simp only [h, Option.map_eq_some_iff]
  constructor
  · rintro ⟨_, ⟨row, hrow, rfl⟩, hforeign⟩
    obtain ⟨huser, hteam, -⟩ := @foldl_editRow_owner env userId teamId now cats row c
    exact ⟨row, hrow, by rwa [huser, hteam] at hforeign⟩
  · rintro ⟨row, hrow, hforeign⟩
    exact ⟨row, ⟨row, hrow, foldl_editRow_of_foreign c hforeign⟩, hforeign⟩

theorem isolated_iff_of_accepts (h : env.Accepts db userId teamId cats) :
    Isolated userId teamId db (commit db (env.updateCategories db now userId teamId cats)) ↔
      ∀ c, Foreign db userId teamId c → ∀ channels, env.assigned cats c = some channels →
        ∀ ch, db.mappings.lookup (c, ch) = place channels ch := by
  obtain ⟨db', hok, -, hcats, hmap⟩ := updateCategories_spec h now
  rw [hok]
  constructor
  · intro hiso c hc channels hassigned ch
    have hkept := hiso.mappings c (.inl hc) ch
    rw [← hkept]
    exact (hmap (c, ch)).trans (by rw [hassigned]; rfl)
  · intro hplaces
    have hforeign {c : Uuid} (hc : Foreign db userId teamId c ∨ Foreign db' userId teamId c) :
        Foreign db userId teamId c := hc.elim (fun hc => hc) (foreign_iff hcats).1
    refine ⟨fun c hc => ?_, fun c hc ch => ?_⟩
    · obtain ⟨row, hrow, hother⟩ := hforeign hc
      refine (hcats c).trans ?_
      rw [hrow, Option.map_some, foldl_editRow_of_foreign c hother]
    · refine (hmap (c, ch)).trans ?_
      cases hassigned : env.assigned cats c with
      | none => rfl
      | some channels => exact (hplaces c (hforeign hc) channels hassigned ch).symm

/-- An update leaves the rows of others alone exactly if it is refused, or if the channels that it gives to categories
of others are, in their places, those that they have. -/
theorem isolated_iff (env : SidebarEnv) (db : SidebarDb) (now : Int) (userId teamId : Uuid)
    (cats : List SidebarCategory) :
    Isolated userId teamId db (commit db (env.updateCategories db now userId teamId cats)) ↔
      (env.Accepts db userId teamId cats → ∀ c, Foreign db userId teamId c →
        ∀ channels, env.assigned cats c = some channels → ∀ ch, db.mappings.lookup (c, ch) = place channels ch) := by
  by_cases h : env.Accepts db userId teamId cats
  · rw [imp_iff_right h]
    exact isolated_iff_of_accepts h
  · rw [commit_of_not_accepts h]
    exact iff_of_true .refl fun h' => absurd h' h

/-- How ids are read in the runs below. -/
def plainEnv : SidebarEnv := ⟨Uuid.ofHyphenated, fun _ => 0, fun _ => 0, Uuid.number⟩

theorem parseUuid_plainEnv : plainEnv.parseUuid = Uuid.ofHyphenated := rfl

theorem parse_hyphenated (id : Uuid) : plainEnv.parse id.hyphenated = some id := by
  rw [parse, parseMmOrUuid, parseUuid_plainEnv, Uuid.ofHyphenated_hyphenated, Option.some_or]

theorem fits_mine : (fitsColumn 32 "custom" && fitsColumn 64 "Mine" && fitsColumn 32 "alpha") = true := by decide

/-- The user `2` has the channel `5` in a category of the team `3`. -/
def othersCategory : SidebarDb where
  teams := [3]
  teamMembers := [(3, 1), (3, 2)]
  channels := (∅ : Assoc Uuid SidebarChannel).insert 5 ⟨3, .Public, "general", none, false⟩
  channelMembers := ∅
  categories := (∅ : Assoc Uuid CategoryRow).insert 9 ⟨3, 2, "custom", "Mine", "alpha", false, false, 0, 0, 0, 0, fits_mine⟩
  mappings := (∅ : Assoc (Uuid × Uuid) Int).insert (9, 5) 0
  members_exist _ hm := absurd hm (by simp)
  mappings_exist m hm := by
    rcases (AList.mem_insert _).1 hm with rfl | hm
    · decide
    · exact absurd hm (by simp)

/-- An entry of the user `1` for the category `9`, without channels. -/
def emptyEntry : SidebarCategory :=
  ⟨(9 : Uuid).hyphenated, (3 : Uuid).hyphenated, (1 : Uuid).hyphenated, "custom", "", "alpha", false, false, [], 0, 0, 0, 0⟩

theorem unmaps_others_channel :
    ¬ Isolated 1 3 othersCategory (commit othersCategory (plainEnv.updateCategories othersCategory 0 1 3 [emptyEntry])) := by
  have haccepts : plainEnv.Accepts othersCategory 1 3 [emptyEntry] := by
    refine ⟨⟨by decide, by decide⟩, fun cat hcat => ?_⟩
    obtain rfl := List.mem_singleton.1 hcat
    exact
      { user := parse_hyphenated 1
        team := parse_hyphenated 3
        fits := by decide
        parsed := fun _ hid => absurd hid List.not_mem_nil
        category := fun hne => absurd rfl hne
        channels := fun _ hch => absurd hch List.not_mem_nil
        nodup := List.nodup_nil }
  rw [isolated_iff_of_accepts haccepts]
  intro h
  have hassigned : plainEnv.assigned [emptyEntry] 9 = some [] := by
    rw [assigned_cons, categoryUuid, emptyEntry, parse_hyphenated]
    rfl
  have hplace := h 9 ⟨_, rfl, by decide⟩ [] hassigned 5
  exact absurd hplace (by decide)

end Rustchat.SidebarIsolation
