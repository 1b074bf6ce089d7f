import Mathlib.Data.String.Basic
import Rustchat.ChannelSubs
import Rustchat.KeycloakSync

/-!
# Sidebar categories (`api/v4/users/user_sidebar_categories.rs`, `api/v4/categories.rs`)

A user's categories in a team, and the channels mapped to them. `get_categories` lists the categories with their
channels and puts the other channels of the user into one of them; without categories it makes one up. The writing
requests are `create_category`, `update_categories`, `update_category_order`, `update_category` and `delete_category`;
members join and leave channels meanwhile. Team ids are resolved, and callers are who they act for.
-/

namespace Rustchat

structure CategoryRow where
  teamId : Uuid
  userId : Uuid
  type : String
  displayName : String
  sorting : String
  muted : Bool
  collapsed : Bool
  sortOrder : Int
  createAt : Int
  updateAt : Int
  deleteAt : Int
  fits : (fitsColumn 32 type && fitsColumn 64 displayName && fitsColumn 32 sorting) = true

structure SidebarChannel where
  teamId : Uuid
  channelType : ChannelType
  name : String
  displayName : Option String
  isArchived : Bool

/-- `mm::SidebarCategory` -/
structure SidebarCategory where
  id : String
  teamId : String
  userId : String
  categoryType : String
  displayName : String
  sorting : String
  muted : Bool
  collapsed : Bool
  channelIds : List String
  sortOrder : Int
  createAt : Int
  updateAt : Int
  deleteAt : Int
deriving DecidableEq

structure SidebarCategories where
  categories : List SidebarCategory
  order : List String

structure CreateCategoryRequest where
  userId : Option String
  teamId : Option String
  displayName : String
  categoryType : Option String
  sorting : Option String

structure UpdateCategoryRequest where
  displayName : Option String
  sorting : Option String
  muted : Option Bool
  collapsed : Option Bool
  channelIds : Option (List String)

/-- A mapping is known by its category and its channel, a member row by its channel and its user. -/
structure SidebarDb where
  teams : List Uuid
  -- teams and users
  teamMembers : List (Uuid × Uuid)
  channels : Assoc Uuid SidebarChannel
  channelMembers : Assoc (Uuid × Uuid) Unit
  categories : Assoc Uuid CategoryRow
  -- the values of `sort_order`
  mappings : Assoc (Uuid × Uuid) Int
  -- the foreign keys
  members_exist : ∀ m ∈ channelMembers, m.1 ∈ channels
  mappings_exist : ∀ m ∈ mappings, m.1 ∈ categories ∧ m.2 ∈ channels

/-- What a request takes from outside: a new id, and the time in milliseconds. -/
structure CategoryDraw where
  id : Uuid
  now : Int

/-- What the handlers use: how ids are read, and how the database orders texts and rows. -/
structure SidebarEnv where
  -- `Uuid::parse_str`
  parseUuid : String → Option Uuid
  -- `Uuid::new_v5` with `NAMESPACE_OID`
  newV5 : String → Uuid
  collate : String → ℕ
  tie : Uuid ↪ ℕ

namespace SidebarEnv

def parse (env : SidebarEnv) (id : String) : Option Uuid := parseMmOrUuid env.parseUuid id

/-- The id of a category, made up for a text that is none. -/
def categoryUuid (env : SidebarEnv) (id : String) : Uuid := (env.parse id).getD (env.newV5 id)

end SidebarEnv

def CategoryRow.toCategory (row : CategoryRow) (id : Uuid) (channelIds : List Uuid) : SidebarCategory :=
  { id := encodeMmId id, teamId := encodeMmId row.teamId, userId := encodeMmId row.userId, categoryType := row.type,
    displayName := row.displayName, sorting := row.sorting, muted := row.muted, collapsed := row.collapsed,
    channelIds := channelIds.map encodeMmId, sortOrder := row.sortOrder, createAt := row.createAt,
    updateAt := row.updateAt, deleteAt := row.deleteAt }

def CategoryRow.edit (row : CategoryRow) (displayName sorting : String) (muted collapsed : Bool) (now : Int)
    (h : (fitsColumn 64 displayName && fitsColumn 32 sorting) = true) : CategoryRow :=
  { row with
    displayName, sorting, muted, collapsed
    updateAt := now
    fits := by
      have hrow := row.fits
      simp only [Bool.and_eq_true] at h hrow ⊢
      exact ⟨⟨hrow.1.1, h.1⟩, h.2⟩ }

namespace SidebarDb

def ensureTeamMember (db : SidebarDb) (userId teamId : Uuid) : Except AppError Unit :=
  (ensure (teamId ∈ db.teams) (.notFound "Team not found")).bind fun _ =>
    ensure ((teamId, userId) ∈ db.teamMembers) (.forbidden "User is not a member of the team")

/-- `UPDATE channel_categories .. WHERE id = $6 AND user_id = $7 AND team_id = $8` -/
def editCategory (db : SidebarDb) (id userId teamId : Uuid) (f : CategoryRow → CategoryRow) : SidebarDb :=
  { db with
    categories := Assoc.modify id (fun row => if row.userId = userId ∧ row.teamId = teamId then f row else row)
      db.categories
    mappings_exist := fun m hm => ⟨Assoc.mem_modify.2 (db.mappings_exist m hm).1, (db.mappings_exist m hm).2⟩ }

/-- `DELETE FROM channel_category_channels WHERE category_id = $1` -/
def clearMappings (db : SidebarDb) (id : Uuid) : SidebarDb :=
  { db with
    mappings := Assoc.eraseWhere (fun m => m.1 = id) db.mappings
    mappings_exist := fun m hm => db.mappings_exist m (Assoc.mem_eraseWhere.1 hm).2 }

/-- `INSERT INTO channel_category_channels`, which fails on a row that is there and on missing references. -/
def insertMapping (db : SidebarDb) (id channelId : Uuid) (sortOrder : Int) : Except AppError SidebarDb :=
  if h : id ∈ db.categories ∧ channelId ∈ db.channels ∧ (id, channelId) ∉ db.mappings then
    .ok { db with
      mappings := db.mappings.insert (id, channelId) sortOrder
      mappings_exist := fun m hm => (AList.mem_insert _).1 hm |>.elim (fun he => he ▸ ⟨h.1, h.2.1⟩) (db.mappings_exist m) }
  else .error .database

/-- `INSERT INTO channel_members .. ON CONFLICT DO NOTHING`, for a channel that exists. -/
def join (db : SidebarDb) (channelId userId : Uuid) : SidebarDb :=
  if h : channelId ∈ db.channels then
    { db with
      channelMembers := Assoc.insertNew (channelId, userId) () db.channelMembers
      members_exist := fun m hm => (Assoc.mem_insertNew.1 hm).elim (db.members_exist m) fun he => he ▸ h }
  else db

/-- `DELETE FROM channel_members` -/
def leave (db : SidebarDb) (channelId userId : Uuid) : SidebarDb :=
  { db with
    channelMembers := db.channelMembers.erase (channelId, userId)
    members_exist := fun m hm => db.members_exist m (AList.mem_erase.1 hm).2 }

end SidebarDb

namespace SidebarEnv

variable (env : SidebarEnv)

open SidebarDb Keycloak

/-! ### Reading -/

def liveCategories (db : SidebarDb) (userId teamId : Uuid) : List (Uuid × CategoryRow) :=
  Page.orderBy (fun row => env.tie row.1) (Assoc.views (fun id row =>
    if row.userId = userId ∧ row.teamId = teamId ∧ row.deleteAt = 0 then some (id, row) else none) db.categories)

def sortCategoryRows (rows : List (Uuid × CategoryRow)) : List (Uuid × CategoryRow) :=
  let hasCustomOrder := rows.any fun row => row.2.sortOrder ≠ 0
  if hasCustomOrder then Page.orderBy (fun row => toLex (row.2.sortOrder, asciiLower row.2.displayName)) rows
  else Page.orderBy (fun row => asciiLower row.2.displayName) rows

/-- The channels that are mapped to a category, with their `sort_order`. -/
def mappingsOf (db : SidebarDb) (categoryId : Uuid) : List (Uuid × Int) :=
  Assoc.views (fun m sortOrder => if m.1 = categoryId then some (m.2, sortOrder) else none) db.mappings

theorem mem_mappingsOf_iff {db : SidebarDb} {categoryId : Uuid} {m : Uuid × Int} :
    m ∈ mappingsOf db categoryId ↔ db.mappings.lookup (categoryId, m.1) = some m.2 := by
  rw [mappingsOf, Assoc.mem_views]
  constructor
  · rintro ⟨⟨c, ch⟩, i, hm, hw⟩
    obtain ⟨hc, heq⟩ := Option.ite_none_right_eq_some.1 hw
    rw [← Option.some.inj heq, ← hc]
    exact hm
  · exact fun hm => ⟨(categoryId, m.1), m.2, hm, if_pos rfl⟩

theorem mem_mappingsOf {db : SidebarDb} {categoryId channelId : Uuid} :
    (∃ sortOrder, (channelId, sortOrder) ∈ mappingsOf db categoryId) ↔ (categoryId, channelId) ∈ db.mappings := by
  rw [← AList.lookup_isSome, Option.isSome_iff_exists]
  exact exists_congr fun _ => mem_mappingsOf_iff

def channelIds (db : SidebarDb) (categoryId : Uuid) : List Uuid :=
  (Page.orderBy (fun m => toLex (m.2, env.tie m.1)) (mappingsOf db categoryId)).map Prod.fst

/-- Whether the sidebar of a team shows a channel: it is one of the team, or one of no team. -/
def InSidebar (teamId : Uuid) (channel : SidebarChannel) : Prop :=
  match channel.channelType with
  | .Public | .Private => channel.teamId = teamId
  | .Direct | .Group => True

instance (teamId : Uuid) : DecidablePred (InSidebar teamId) := fun channel =>
  match h : channel.channelType with
  | .Public | .Private => decidable_of_iff (channel.teamId = teamId) (by rw [InSidebar, h])
  | .Direct | .Group => isTrue (by rw [InSidebar, h]; trivial)

def sidebarCandidateChannels (db : SidebarDb) (userId teamId : Uuid) : List (Uuid × SidebarChannel) :=
  Page.orderBy (fun c => toLex (env.collate (c.2.displayName.getD c.2.name), env.tie c.1))
    (Assoc.views (fun id channel =>
      if (id, userId) ∈ db.channelMembers ∧ channel.isArchived = false ∧ InSidebar teamId channel then
        some (id, channel) else none) db.channels)

def spaced (text : String) : List Char := text.toList.map fun c => if c = '_' then ' ' else c

def categoryIndexByTypeOrName (categories : List SidebarCategory) (targetType : String) : Option ℕ :=
  (categories.findIdx? fun category => category.categoryType = targetType).or
    (categories.findIdx? fun category =>
      (spaced category.displayName).map Char.toLower = (spaced targetType).map Char.toLower)

def targetIdx (categories : List SidebarCategory) (channelType : ChannelType) : Option ℕ :=
  let channelsIdx := (categoryIndexByTypeOrName categories "channels").or (some 0)
  let dmsIdx := (categoryIndexByTypeOrName categories "direct_messages").or channelsIdx
  match channelType with
  | .Direct | .Group => dmsIdx
  | .Public | .Private => channelsIdx

def pushChannel (id : Uuid) (category : SidebarCategory) : SidebarCategory :=
  { category with channelIds := category.channelIds ++ [encodeMmId id] }

/-- Put the channels that are not assigned yet where `target` says. -/
def pushChannels (target : ChannelType → Option ℕ) :
    List (Uuid × SidebarChannel) → List Uuid → List SidebarCategory → List SidebarCategory
  | [], _, categories => categories
  | c :: channels, assigned, categories =>
    if c.1 ∈ assigned then pushChannels target channels assigned categories
    else match target c.2.channelType with
      | some idx => pushChannels target channels (c.1 :: assigned) (categories.modify idx (pushChannel c.1))
      | none => pushChannels target channels assigned categories

def backfillOrphanedChannels (categories : List SidebarCategory) (channels : List (Uuid × SidebarChannel))
    (assigned : List Uuid) : List SidebarCategory :=
  if categories.isEmpty then categories else pushChannels (targetIdx categories) channels assigned categories

def buildDefaultCategories (drawn : CategoryDraw) (userId teamId : Uuid) (channelIds : List String) :
    SidebarCategories :=
  let category : SidebarCategory :=
    { id := encodeMmId drawn.id, teamId := encodeMmId teamId, userId := encodeMmId userId, categoryType := "custom",
      displayName := "Channels", sorting := "alpha", muted := false, collapsed := false, channelIds, sortOrder := 0,
      createAt := drawn.now, updateAt := drawn.now, deleteAt := 0 }
  { categories := [category], order := [category.id] }

def categoriesOf (db : SidebarDb) (drawn : CategoryDraw) (userId teamId : Uuid) : SidebarCategories :=
  let candidates := env.sidebarCandidateChannels db userId teamId
  let rows := env.liveCategories db userId teamId
  if rows.isEmpty then buildDefaultCategories drawn userId teamId (candidates.map fun c => encodeMmId c.1)
  else
    let sorted := sortCategoryRows rows
    { categories := backfillOrphanedChannels (sorted.map fun row => row.2.toCategory row.1 (env.channelIds db row.1))
        candidates (sorted.flatMap fun row => env.channelIds db row.1)
      order := sorted.map fun row => encodeMmId row.1 }

/-- `get_categories_internal` -/
def getCategories (db : SidebarDb) (drawn : CategoryDraw) (userId teamId : Uuid) :
    Except AppError SidebarCategories :=
  (db.ensureTeamMember userId teamId).map fun _ => env.categoriesOf db drawn userId teamId

/-! ### Writing -/

/-- An id in a body is the one of the path. -/
def ensureSame (id : String) (expected : Uuid) (invalid mismatch : String) : Except AppError Unit :=
  (okOr (env.parse id) (.badRequest invalid)).bind fun parsed => ensure (parsed = expected) (.badRequest mismatch)

/-- `create_category_internal` -/
def createCategory (db : SidebarDb) (drawn : CategoryDraw) (userId teamId : Uuid) (input : CreateCategoryRequest) :
    Except AppError (SidebarDb × SidebarCategory) :=
  (db.ensureTeamMember userId teamId).bind fun _ =>
  (input.userId.elim (.ok ()) fun id => env.ensureSame id userId "Invalid user_id" "user_id does not match path").bind fun _ =>
  (input.teamId.elim (.ok ()) fun id => env.ensureSame id teamId "Invalid team_id" "team_id does not match path").bind fun _ =>
    let orders := Assoc.views (fun _ row =>
      if row.userId = userId ∧ row.teamId = teamId then some row.sortOrder else none) db.categories
    -- `(COALESCE(MAX(sort_order), -1) + 1)::INT`
    let nextOrder := (orders.max?.getD (-1)) + 1
    let categoryType := input.categoryType.getD "custom"
    let sorting := input.sorting.getD "alpha"
    if h : (fitsColumn 32 categoryType && fitsColumn 64 input.displayName && fitsColumn 32 sorting) = true ∧
        drawn.id ∉ db.categories then
      let row : CategoryRow := ⟨teamId, userId, categoryType, input.displayName, sorting, false, false, nextOrder,
        drawn.now, drawn.now, 0, h.1⟩
      .ok ({ db with
        categories := db.categories.insert drawn.id row
        mappings_exist := fun m hm =>
          ⟨(AList.mem_insert _).2 (.inr (db.mappings_exist m hm).1), (db.mappings_exist m hm).2⟩ },
        row.toCategory drawn.id [])
    else .error .database

/-- The loop over the channels of a category, from index `i` on. -/
def insertMappings (id : Uuid) : ℕ → List String → SidebarDb → Except AppError (SidebarDb × List Uuid)
  | _, [], db => .ok (db, [])
  | i, channelId :: channelIds, db =>
    (okOr (env.parse channelId) (.badRequest "Invalid channel ID")).bind fun channelUuid =>
    (db.insertMapping id channelUuid i).bind fun db =>
      (insertMappings id (i + 1) channelIds db).map fun rest => (rest.1, channelUuid :: rest.2)

/-- A turn of the loop of `update_categories_internal`. A text that does not fit its column fails the `UPDATE`, whether
it finds a row or not. -/
def updateEntry (userId teamId : Uuid) (now : Int) (db : SidebarDb) (cat : SidebarCategory) :
    Except AppError (SidebarDb × SidebarCategory) :=
  let id := env.categoryUuid cat.id
  (env.ensureSame cat.userId userId "Invalid category user_id" "category user_id does not match path").bind fun _ =>
  (env.ensureSame cat.teamId teamId "Invalid category team_id" "category team_id does not match path").bind fun _ =>
    if h : (fitsColumn 64 cat.displayName && fitsColumn 32 cat.sorting) = true then
      let edited := db.editCategory id userId teamId fun row =>
        row.edit cat.displayName cat.sorting cat.muted cat.collapsed now h
      (env.insertMappings id 0 cat.channelIds (edited.clearMappings id)).map fun written =>
        (written.1, { cat with id := encodeMmId id, userId := encodeMmId userId, teamId := encodeMmId teamId,
                               sortOrder := 0, channelIds := written.2.map encodeMmId })
    else .error .database

def updateEntries (userId teamId : Uuid) (now : Int) :
    List SidebarCategory → SidebarDb → Except AppError (SidebarDb × List SidebarCategory)
  | [], db => .ok (db, [])
  | cat :: cats, db =>
    (env.updateEntry userId teamId now db cat).bind fun first =>
      (updateEntries userId teamId now cats first.1).map fun rest => (rest.1, first.2 :: rest.2)

/-- `update_categories_internal`, in one transaction. -/
def updateCategories (db : SidebarDb) (now : Int) (userId teamId : Uuid) (cats : List SidebarCategory) :
    Except AppError (SidebarDb × List SidebarCategory) :=
  (db.ensureTeamMember userId teamId).bind fun _ => env.updateEntries userId teamId now cats db

def setOrders (userId teamId : Uuid) : ℕ → List String → SidebarDb → SidebarDb
  | _, [], db => db
  | i, id :: order, db =>
    setOrders userId teamId (i + 1) order
      (db.editCategory (env.categoryUuid id) userId teamId fun row => { row with sortOrder := i })

/-- `update_category_order_internal` -/
def updateCategoryOrder (db : SidebarDb) (userId teamId : Uuid) (order : List String) :
    Except AppError (SidebarDb × List String) :=
  (db.ensureTeamMember userId teamId).map fun _ => (env.setOrders userId teamId 0 order db, order)

def liveCategory (db : SidebarDb) (id userId teamId : Uuid) : Option CategoryRow :=
  (db.categories.lookup id).filter fun row => row.userId = userId ∧ row.teamId = teamId ∧ row.deleteAt = 0

/-- The loop of `update_category`, from index `i` on: each row on its own, until one fails. -/
def insertEach (id : Uuid) : ℕ → List String → SidebarDb → SidebarDb × Except AppError Unit
  | _, [], db => (db, .ok ())
  | i, channelId :: channelIds, db => match env.parse channelId with
    | none => insertEach id (i + 1) channelIds db
    | some channelUuid => match db.insertMapping id channelUuid i with
      | .ok db => insertEach id (i + 1) channelIds db
      | .error e => (db, .error e)

/-- `update_category`, the rows and the answer -/
def updateCategory (db : SidebarDb) (now : Int) (userId teamId : Uuid) (categoryId : String)
    (input : UpdateCategoryRequest) : SidebarDb × Except AppError SidebarCategory :=
  let id := env.categoryUuid categoryId
  match liveCategory db id userId teamId with
  | none => (db, .error .database)
  | some row =>
    let displayName := input.displayName.getD row.displayName
    let sorting := input.sorting.getD row.sorting
    if h : (fitsColumn 64 displayName && fitsColumn 32 sorting) = true then
      let row := row.edit displayName sorting (input.muted.getD row.muted) (input.collapsed.getD row.collapsed) now h
      let edited := db.editCategory id userId teamId fun _ => row
      let written : SidebarDb × Except AppError Unit := match input.channelIds with
        | none => (edited, .ok ())
        | some channelIds => env.insertEach id 0 channelIds (edited.clearMappings id)
      (written.1, written.2.map fun _ => row.toCategory id (env.channelIds written.1 id))
    else (db, .error .database)

/-- `UPDATE channel_category_channels SET category_id = $1 WHERE category_id = $2`, which fails where the two categories
have a channel in common. -/
def moveMappings (db : SidebarDb) (target source : Uuid) : Except AppError SidebarDb :=
  if h : target ∈ db.categories ∧ ∀ m ∈ mappingsOf db source, (target, m.1) ∉ db.mappings then
    .ok { db with
      mappings := ((mappingsOf db source).map fun m => ((target, m.1), m.2)).foldl (fun ms m => ms.insert m.1 m.2)
        (Assoc.eraseWhere (fun m => m.1 = source) db.mappings)
      mappings_exist := by
        intro m hm
        rcases Assoc.mem_foldl_insert.1 hm with hm | ⟨p, hp, rfl⟩
        · exact db.mappings_exist m (Assoc.mem_eraseWhere.1 hm).2
        · obtain ⟨q, hq, rfl⟩ := List.mem_map.1 hp
          exact ⟨h.1, (db.mappings_exist (source, q.1) (mem_mappingsOf.1 ⟨q.2, hq⟩)).2⟩ }
  else .error .database

/-- `UPDATE channel_categories SET delete_at = $2 WHERE id = $1` -/
def softDelete (db : SidebarDb) (id : Uuid) (now : Int) : SidebarDb :=
  { db with
    categories := Assoc.modify id (fun row => { row with deleteAt := now }) db.categories
    mappings_exist := fun m hm => ⟨Assoc.mem_modify.2 (db.mappings_exist m hm).1, (db.mappings_exist m hm).2⟩ }

/-- `delete_category` -/
def deleteCategory (db : SidebarDb) (now : Int) (userId teamId : Uuid) (categoryId : String) :
    Except AppError SidebarDb :=
  let id := env.categoryUuid categoryId
  (okOr (liveCategory db id userId teamId) (.notFound "Category not found")).bind fun category =>
  (ensure (category.type ∉ ["channels", "direct_messages", "favorites"])
    (.badRequest "Cannot delete default category")).bind fun _ =>
    let default := (env.liveCategories db userId teamId).find? fun row => row.2.type = "channels"
    (match default with
      | some row => moveMappings db row.1 id
      | none => .ok (db.clearMappings id)).map fun moved => softDelete moved id now

end SidebarEnv
end Rustchat
