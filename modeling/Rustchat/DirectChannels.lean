import Mathlib.Data.Prod.Lex
import Mathlib.Data.String.Basic
import Rustchat.ChannelSubs
import Rustchat.EmailAccounts
import Rustchat.Lib.Page
import Rustchat.Lib.Prog
import Rustchat.MmId

/-!
# Direct channels (`api/v4/channels/direct.rs`, `api/channels.rs`, `models/channel.rs`)

The direct channel of two users is found by its name in a team. The v4 endpoint takes the oldest team of the caller and
the native one the team of the request; if there is no such channel they insert one, each in its own way. Their
statements interleave. What is sent to the clients is left out.
-/

namespace Rustchat

def sortUserIds (userA userB : Uuid) : Uuid × Uuid := if userA ≤ userB then (userA, userB) else (userB, userA)

/-- "<user1>__<user2>" -/
def canonicalDirectChannelName (userA userB : Uuid) : String :=
  (sortUserIds userA userB).1.hyphenated ++ "__" ++ (sortUserIds userA userB).2.hyphenated

/-- "dm_<user1>_<user2>" -/
def legacyDirectChannelName (userA userB : Uuid) : String :=
  "dm_" ++ (sortUserIds userA userB).1.hyphenated ++ "_" ++ (sortUserIds userA userB).2.hyphenated

/-- `str::split_once` -/
def splitOnce (separator : List Char) : List Char → Option (List Char × List Char)
  | [] => none
  | c :: text =>
    if separator.isPrefixOf (c :: text) then some ([], (c :: text).drop separator.length)
    else (splitOnce separator text).map fun parts => (c :: parts.1, parts.2)

/-- The two users of a name, with the ids read by `parseUuid`. -/
def parseDirectChannelName (parseUuid : String → Option Uuid) (name : String) : Option (Uuid × Uuid) :=
  let users (parts : List Char × List Char) : Option (Uuid × Uuid) :=
    (parseUuid (String.ofList parts.1)).bind fun left =>
      (parseUuid (String.ofList parts.2)).map fun right => sortUserIds left right
  match splitOnce ['_', '_'] name.toList with
  | some parts => users parts
  | none =>
    if ['d', 'm', '_'].isPrefixOf name.toList then (splitOnce ['_'] (name.toList.drop 3)).bind users else none

structure DirectUser where
  username : String
  displayName : Option String

/-- A group of users who may talk to each other, with the flag of `group_dm_acl_flags`. -/
structure AclGroup where
  source : String
  deleted : Bool
  enabled : Bool
  members : List Uuid

structure DirectChannel where
  teamId : Uuid
  channelType : ChannelType
  name : String
  displayName : Option String
  purpose : Option String
  header : Option String
  isArchived : Bool
  creatorId : Option Uuid
  createdAt : Int
  deletedAt : Option Int

/-- A membership of a team is known by the team and the user, one of a channel by the channel and the user. -/
structure DirectDb where
  teams : List Uuid
  users : Assoc Uuid DirectUser
  -- the values of `created_at`
  teamMembers : Assoc (Uuid × Uuid) Int
  groups : List AclGroup
  channels : Assoc Uuid DirectChannel
  channelMembers : Assoc (Uuid × Uuid) Unit
  -- `channels_name_team_unique`
  names_unique : ∀ id id' row row', channels.lookup id = some row → channels.lookup id' = some row' →
    row.teamId = row'.teamId → row.name = row'.name → id = id'

structure ChannelDraw where
  id : Uuid
  now : Int

/-- `CreateChannel`, for a direct channel -/
structure CreateDirectChannel where
  teamId : Uuid
  displayName : Option String
  purpose : Option String
  targetUserId : Option Uuid

inductive DirectRequest where
  -- `POST /channels/direct`, with the ids of the body
  | v4 (userId : Uuid) (userIds : List String) (drawn : ChannelDraw)
  | native (userId : Uuid) (input : CreateDirectChannel) (drawn : ChannelDraw)

structure DirectEnv where
  -- `Uuid::parse_str`
  parseUuid : String → Option Uuid
  dmAclEnabled : Bool
  -- how the database orders rows that are otherwise equal
  tie : Uuid ↪ ℕ

/-! ### Statements -/

inductive DirectAct where
  | selectAcl (userA userB : Uuid)
  | selectTeam (userId : Uuid)
  | selectDisplayName (userId : Uuid)
  | selectTeamMember (teamId userId : Uuid)
  | selectTeammateName (channelId viewerId : Uuid)
  | selectChannel (channelId : Uuid)
  -- `includeDeleted` without `AND deleted_at IS NULL`
  | findDirect (teamId : Uuid) (name legacyName : String) (includeDeleted : Bool)
  | insertMember (channelId userId : Uuid)
  | insertChannel (id : Uuid) (row : DirectChannel)
  -- `ON CONFLICT (team_id, name) DO UPDATE`
  | upsertChannel (id : Uuid) (row : DirectChannel)

def DirectAct.Row : DirectAct → Type
  | selectAcl _ _ => Bool
  | selectTeam _ => Option Uuid
  | selectDisplayName _ => Option String
  | selectTeamMember _ _ => Bool
  | selectTeammateName _ _ => Option String
  | selectChannel _ => Option DirectChannel
  | findDirect _ _ _ _ => Option (Uuid × DirectChannel)
  | insertMember _ _ => Unit
  | insertChannel _ _ => Uuid × DirectChannel
  | upsertChannel _ _ => Uuid × DirectChannel

abbrev DirectAct.Res (act : DirectAct) : Type := Except AppError act.Row

def keycloakGroupSource : String := "plugin_keycloak"

/-- `COALESCE(NULLIF(display_name, ''), username)` -/
def DirectUser.shownName (user : DirectUser) : String := (user.displayName.filter (· ≠ "")).getD user.username

namespace DirectDb

variable (tie : Uuid ↪ ℕ) (db : DirectDb)

/-- The teams of a user, with the times of the memberships. -/
def teamsOf (userId : Uuid) : List (Uuid × Int) :=
  Assoc.views (fun m createdAt => if m.2 = userId then some (m.1, createdAt) else none) db.teamMembers

def teamOf (userId : Uuid) : Option Uuid :=
  ((Page.orderBy (fun team : Uuid × Int => toLex (team.2, tie team.1)) (db.teamsOf userId)).map Prod.fst).head?

def directRows (teamId : Uuid) (name legacyName : String) (includeDeleted : Bool) : List (Uuid × DirectChannel) :=
  Assoc.views (fun id row =>
    if row.teamId = teamId ∧ row.channelType = .Direct ∧ (row.name = name ∨ row.name = legacyName) ∧
      (includeDeleted = true ∨ row.deletedAt = none) then some (id, row) else none) db.channels

def findDirect (teamId : Uuid) (name legacyName : String) (includeDeleted : Bool) : Option (Uuid × DirectChannel) :=
  (Page.orderBy (fun channel : Uuid × DirectChannel => toLex (channel.2.createdAt, tie channel.1))
    (db.directRows teamId name legacyName includeDeleted)).head?

def teammates (channelId viewerId : Uuid) : List DirectUser :=
  Assoc.views (fun userId user =>
    if (channelId, userId) ∈ db.channelMembers ∧ userId ≠ viewerId then some user else none) db.users

def teammateName (channelId viewerId : Uuid) : Option String :=
  (Page.orderBy DirectUser.username (db.teammates channelId viewerId)).head?.map DirectUser.shownName

def aclAllows (userA userB : Uuid) : Bool :=
  db.groups.any fun group => group.enabled && !group.deleted && group.source == keycloakGroupSource &&
    group.members.contains userA && group.members.contains userB

/-- What an `INSERT` needs besides the keys: widths and references. -/
def Accepts (row : DirectChannel) : Prop :=
  (fitsColumn 255 row.name && row.displayName.all (fitsColumn 255)) = true ∧ row.teamId ∈ db.teams ∧
    ∀ userId ∈ row.creatorId, userId ∈ db.users

instance (row : DirectChannel) : Decidable (db.Accepts row) :=
  inferInstanceAs (Decidable (_ ∧ _ ∧ ∀ userId ∈ row.creatorId, userId ∈ db.users))

/-- The channel of a team that has a name. -/
def named (teamId : Uuid) (name : String) : Option (Uuid × DirectChannel) :=
  (Assoc.views (fun id (row : DirectChannel) =>
    if row.teamId = teamId ∧ row.name = name then some (id, row) else none) db.channels).head?

variable {db}

theorem named_eq_none {teamId : Uuid} {name : String} : db.named teamId name = none ↔
    ∀ id row, db.channels.lookup id = some row → ¬ (row.teamId = teamId ∧ row.name = name) := by
  rw [named, List.head?_eq_none_iff, List.eq_nil_iff_forall_not_mem]
  constructor
  · exact fun h id row hl hrow => h (id, row) (Assoc.mem_views.2 ⟨id, row, hl, if_pos hrow⟩)
  · rintro h channel hchannel
    obtain ⟨id, row, hl, hrow⟩ := Assoc.mem_views.1 hchannel
    exact h id row hl (Option.ite_none_right_eq_some.1 hrow).1

theorem named_eq_some {teamId : Uuid} {name : String} {channel : Uuid × DirectChannel}
    (h : db.named teamId name = some channel) :
    db.channels.lookup channel.1 = some channel.2 ∧ channel.2.teamId = teamId ∧ channel.2.name = name := by
  obtain ⟨id, row, hl, hrow⟩ := Assoc.mem_views.1 (List.mem_of_mem_head? h)
  obtain ⟨hfacts, heq⟩ := Option.ite_none_right_eq_some.1 hrow
  rw [← Option.some.inj heq]
  exact ⟨hl, hfacts⟩

variable (db)

/-- `INSERT INTO channels` -/
def insertChannel (id : Uuid) (row : DirectChannel) : Except AppError (Uuid × DirectChannel) × DirectDb :=
  if h : db.Accepts row ∧ id ∉ db.channels ∧ db.named row.teamId row.name = none then
    (.ok (id, row),
      { db with
        channels := db.channels.insert id row
        names_unique := by
          intro i j f g hf hg hteam hname
          have hfree := named_eq_none.1 h.2.2
          rcases Assoc.lookup_insert_cases hf with ⟨rfl, rfl⟩ | ⟨-, hf'⟩
          · rcases Assoc.lookup_insert_cases hg with ⟨rfl, -⟩ | ⟨-, hg'⟩
            · rfl
            · exact absurd ⟨hteam.symm, hname.symm⟩ (hfree j g hg')
          · rcases Assoc.lookup_insert_cases hg with ⟨rfl, rfl⟩ | ⟨-, hg'⟩
            · exact absurd ⟨hteam, hname⟩ (hfree i f hf')
            · exact db.names_unique i j f g hf' hg' hteam hname })
  else (.error .database, db)

/-- A channel keeps its display name if it has one. -/
def keepDisplayName (displayName : Option String) (row : DirectChannel) : DirectChannel :=
  { row with displayName := if row.displayName = none ∨ row.displayName = some "" then displayName else row.displayName }

/-- `INSERT INTO channels .. ON CONFLICT (team_id, name) DO UPDATE` -/
def upsertChannel (id : Uuid) (row : DirectChannel) : Except AppError (Uuid × DirectChannel) × DirectDb :=
  match db.named row.teamId row.name with
  | none => db.insertChannel id row
  | some channel =>
    if row.displayName.all (fitsColumn 255) then
      (.ok (channel.1, keepDisplayName row.displayName channel.2),
        { db with
          channels := Assoc.modify channel.1 (keepDisplayName row.displayName) db.channels
          names_unique := by
            intro i j f g hf hg hteam hname
            have hkept {k : Uuid} {row' : DirectChannel}
                (hl : (Assoc.modify channel.1 (keepDisplayName row.displayName) db.channels).lookup k = some row') :
                ∃ old, db.channels.lookup k = some old ∧ old.teamId = row'.teamId ∧ old.name = row'.name := by
              rw [Assoc.lookup_modify] at hl
              split at hl
              · next heq =>
                obtain ⟨old, hold, rfl⟩ := Option.map_eq_some_iff.1 hl
                exact ⟨old, heq ▸ hold, rfl, rfl⟩
              · exact ⟨row', hl, rfl, rfl⟩
            obtain ⟨f', hf', hfteam, hfname⟩ := hkept hf
            obtain ⟨g', hg', hgteam, hgname⟩ := hkept hg
            exact db.names_unique i j f' g' hf' hg' (hfteam.trans (hteam.trans hgteam.symm))
              (hfname.trans (hname.trans hgname.symm)) })
    else (.error .database, db)

/-- `INSERT INTO channel_members .. ON CONFLICT DO NOTHING` -/
def insertMember (channelId userId : Uuid) : Except AppError Unit × DirectDb :=
  if channelId ∈ db.channels ∧ userId ∈ db.users then
    (.ok (), { db with channelMembers := Assoc.insertNew (channelId, userId) () db.channelMembers })
  else (.error .database, db)

def perform : (act : DirectAct) → act.Res × DirectDb
  | .selectAcl userA userB => (.ok (db.aclAllows userA userB), db)
  | .selectTeam userId => (.ok (db.teamOf tie userId), db)
  | .selectDisplayName userId => (.ok ((db.users.lookup userId).map DirectUser.shownName), db)
  | .selectTeamMember teamId userId => (.ok (decide ((teamId, userId) ∈ db.teamMembers)), db)
  | .selectTeammateName channelId viewerId => (.ok (db.teammateName channelId viewerId), db)
  | .selectChannel channelId => (.ok ((db.channels.lookup channelId).filter fun row => row.deletedAt = none), db)
  | .findDirect teamId name legacyName includeDeleted => (.ok (db.findDirect tie teamId name legacyName includeDeleted), db)
  | .insertMember channelId userId => db.insertMember channelId userId
  | .insertChannel id row => db.insertChannel id row
  | .upsertChannel id row => db.upsertChannel id row

def sem (reached : Bool) (act : DirectAct) (db : DirectDb) : act.Res × DirectDb :=
  if reached then db.perform tie act else (.error .database, db)

end DirectDb

/-! ### The endpoints -/

abbrev DirectProg := ExceptT AppError (Prog DirectAct DirectAct.Res)

namespace DirectEnv

def ask (act : DirectAct) : DirectProg act.Row := Prog.call act

def orThrow {α : Type} (o : Option α) (e : AppError) : DirectProg α :=
  match o with
  | some a => pure a
  | none => throw e

def addMembers (channelId : Uuid) (userIds : List Uuid) : DirectProg PUnit :=
  userIds.forM fun userId => do
    let _ ← ask (.insertMember channelId userId)
    pure ⟨⟩

variable (env : DirectEnv)

def parse (id : String) : Option Uuid := parseMmOrUuid env.parseUuid id

/-- `enforce_dm_acl_for_users`, for two users -/
def enforceDmAclForUsers (userA userB : Uuid) : DirectProg Unit :=
  if env.dmAclEnabled = false ∨ userA = userB then pure ()
  else do
    let allowed : Bool ← ask (.selectAcl (sortUserIds userA userB).1 (sortUserIds userA userB).2)
    if allowed then pure ()
    else throw (.forbidden "Direct and group messaging is restricted by group policy")

def createDirectChannelInternal (drawn : ChannelDraw) (creatorId otherId : Uuid) : DirectProg (Uuid × DirectChannel) := do
  env.enforceDmAclForUsers creatorId otherId
  let canonicalName := canonicalDirectChannelName creatorId otherId
  let legacyName := legacyDirectChannelName creatorId otherId
  let ids := [(sortUserIds creatorId otherId).1, (sortUserIds creatorId otherId).2]
  let team ← ask (.selectTeam creatorId)
  let teamId ← orThrow team (.badRequest "User has no team")
  let shownName : Option String ← ask (.selectDisplayName otherId)
  let displayName := shownName.getD "Direct Message"
  let found : Option (Uuid × DirectChannel) ← ask (.findDirect teamId canonicalName legacyName true)
  match found with
  | some channel => do
    addMembers channel.1 ids
    pure channel
  | none => do
    let channel ← ask (.upsertChannel drawn.id
      { teamId, channelType := .Direct, name := canonicalName, displayName := some displayName, purpose := some "",
        header := some "", isArchived := false, creatorId := some creatorId, createdAt := drawn.now, deletedAt := none })
    addMembers channel.1 ids
    pure channel

/-- `create_direct_channel` -/
def createDirectChannel (drawn : ChannelDraw) (userId : Uuid) (userIds : List String) :
    DirectProg (Uuid × DirectChannel) :=
  if userIds.length ≠ 2 then throw (.badRequest "Request body must contain exactly 2 user IDs")
  else match userIds.filterMap env.parse with
    | [first, second] =>
      if userId ∉ [first, second] then throw (.forbidden "Must include your user id")
      else env.createDirectChannelInternal drawn userId (if first = userId then second else first)
    | _ => throw (.badRequest "Invalid user IDs provided")

/-- `ensure_dm_membership` -/
def ensureDmMembership (channelId : Uuid) : DirectProg PUnit := do
  let found : Option DirectChannel ← ask (.selectChannel channelId)
  match found with
  | none => pure ⟨⟩
  | some channel =>
    if channel.channelType = .Direct then
      match parseDirectChannelName env.parseUuid channel.name with
      | some users => addMembers channelId [users.1, users.2]
      | none => pure ⟨⟩
    else pure ⟨⟩

/-- `hydrate_direct_channel_display_name` -/
def hydrateDirectChannelDisplayName (viewerId : Uuid) (channel : Uuid × DirectChannel) :
    DirectProg (Uuid × DirectChannel) :=
  if channel.2.channelType ≠ .Direct then pure channel
  else do
    let shownName : Option String ← ask (.selectTeammateName channel.1 viewerId)
    pure (channel.1, { channel.2 with displayName := some (shownName.getD "Direct Message") })

/-- The part of `create_channel` for direct channels. -/
def createChannel (drawn : ChannelDraw) (userId : Uuid) (input : CreateDirectChannel) :
    DirectProg (Uuid × DirectChannel) := do
  let targetId ← orThrow input.targetUserId (.validation "target_user_id is required for direct messages")
  let ids := [(sortUserIds userId targetId).1, (sortUserIds userId targetId).2]
  let dmName := canonicalDirectChannelName userId targetId
  let legacyDmName := legacyDirectChannelName userId targetId
  let existing : Option (Uuid × DirectChannel) ← ask (.findDirect input.teamId dmName legacyDmName false)
  match existing with
  | some channel => do
    -- an error is ignored
    let _ ← ExceptT.lift (env.ensureDmMembership channel.1).run
    hydrateDirectChannelDisplayName userId channel
  | none => do
    let isTargetMember : Bool ← ask (.selectTeamMember input.teamId targetId)
    if isTargetMember = false then throw (.forbidden "Target user is not a member of this team")
    else do
      let teammateDisplayName : Option String ← ask (.selectDisplayName targetId)
      let displayName := (((input.displayName.map trimText).filter (· ≠ "")).or teammateDisplayName).getD "Direct Message"
      let channel ← ask (.insertChannel drawn.id
        { teamId := input.teamId, channelType := .Direct, name := dmName, displayName := some displayName,
          purpose := input.purpose, header := none, isArchived := false, creatorId := some userId,
          createdAt := drawn.now, deletedAt := none })
      addMembers channel.1 ids
      pure channel

def program : DirectRequest → DirectProg (Uuid × DirectChannel)
  | .v4 userId userIds drawn => env.createDirectChannel drawn userId userIds
  | .native userId input drawn => env.createChannel drawn userId input

end DirectEnv
end Rustchat
