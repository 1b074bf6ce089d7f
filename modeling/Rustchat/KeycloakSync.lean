import Rustchat.Lib.Prog
import Rustchat.Lib.Reorder
import Rustchat.MmId
import Rustchat.Policies

/-!
# The Keycloak group sync (`services/keycloak_sync.rs`)

A sync fetches the groups of Keycloak and makes group members and syncables of them. A syncable that is to add its
group's users inserts their memberships and keeps a row in `group_syncable_memberships` for each one that it has
inserted; when it no longer wants a membership the row goes, and with the last row the membership itself.

The programs are the statements that they perform, one after the other; none of them is in a transaction. The
handlers of `api/v4/groups.rs` reconcile with functions of the same text, and their checks before the first write are
left out, as are the events of the hub and the times. `upsert_group` names a conflict for which the migration has
only a partial index, which PostgreSQL does not infer: here every statement may fail, that one too.
-/

namespace Rustchat

namespace Keycloak

structure KeycloakGroup where
  id : String
  name : String
  path : Option String
  attributes : Assoc String (List String)

/-- A group with its `sub_groups`. -/
inductive KeycloakTree
  | node (group : KeycloakGroup) (subGroups : List KeycloakTree)

mutual

def walk : KeycloakTree → List KeycloakGroup
  | .node group subGroups => group :: flattenGroups subGroups

def flattenGroups : List KeycloakTree → List KeycloakGroup
  | [] => []
  | group :: groups => walk group ++ flattenGroups groups

end

/-- `to_ascii_lowercase` -/
def asciiLower (text : String) : String := String.ofList (text.toList.map Char.toLower)

def parseBoolAttribute (attrs : Assoc String (List String)) (key : String) : Option Bool :=
  ((attrs.lookup key).bind List.head?).bind fun value =>
    let raw := asciiLower (trimText value)
    if raw ∈ ["1", "true", "yes", "on"] then some true
    else if raw ∈ ["0", "false", "no", "off"] then some false
    else none

def parseUuidAttributeList (parseUuid : String → Option Uuid) (attrs : Assoc String (List String)) (key : String) :
    List Uuid :=
  (((attrs.lookup key).getD []).flatMap fun value =>
    (Policies.textParts value).filterMap (parseMmOrUuid parseUuid)).dedup

inductive SyncableKind
  | team
  | channel
deriving DecidableEq

structure SyncableKey where
  groupId : Uuid
  kind : SyncableKind
  syncableId : Uuid
deriving DecidableEq

/-- Of a team or a channel. -/
structure Membership where
  targetType : SyncableKind
  targetId : Uuid
  userId : Uuid
deriving DecidableEq

structure UserRow where
  authProvider : Option String
  authProviderId : Option String
  deleted : Bool

structure GroupRow where
  displayName : String
  description : String
  source : String
  remoteId : Option String
  allowReference : Bool
  deleted : Bool

structure GroupSyncableRow where
  autoAdd : Bool
  schemeAdmin : Bool
  deleted : Bool

structure MemberRow where
  role : String
  -- no column: whether the insert of `ensure_membership` made the row
  bySyncable : Bool

structure Directory where
  users : Assoc Uuid UserRow
  teams : List Uuid
  -- the team of a channel
  channels : Assoc Uuid Uuid
  groups : Assoc Uuid GroupRow
  -- group and user
  groupMembers : Assoc (Uuid × Uuid) Unit
  groupSyncables : Assoc SyncableKey GroupSyncableRow
  groupDmAclFlags : Assoc Uuid Bool

structure Tables extends Directory where
  -- `group_syncable_memberships`
  tracked : Assoc (SyncableKey × Membership) Unit
  -- `team_members` and `channel_members`
  members : Assoc Membership MemberRow

def Directory.HasTarget (d : Directory) (m : Membership) : Prop :=
  match m.targetType with
  | .team => m.targetId ∈ d.teams
  | .channel => m.targetId ∈ d.channels

instance (d : Directory) (m : Membership) : Decidable (d.HasTarget m) :=
  match m with
  | ⟨.team, _, _⟩ => inferInstanceAs (Decidable (_ ∈ d.teams))
  | ⟨.channel, targetId, _⟩ => inferInstanceAs (Decidable (targetId ∈ d.channels))

inductive SyncError
  | config (message : String)
  | externalService (message : String)
  | notFound (message : String)
  | database

/-- Where a hash set or a hash map is iterated. -/
inductive HashSite
  | added (groupId : Uuid)
  | removed (groupId : Uuid)
  | teams (groupId : Uuid)
  | channels (groupId : Uuid)
  | unlinked (groupId : Uuid)
  | desired (key : SyncableKey)

inductive SyncAct
  -- the order of a hash set
  | hashOrder (site : HashSite)
  -- requests to Keycloak; the pages of the members are fetched one after the other
  | fetchAdminToken
  | fetchGroups (token : String)
  | fetchGroupMembers (token groupId : String)
  -- groups and their members
  | upsertGroup (remoteId displayName description : String)
  | usersByExternalId (providerKey : String) (externalIds : List String)
  | userAuth (userId : Uuid)
  | groupUserIds (groupId : Uuid)
  | isGroupMember (groupId userId : Uuid)
  | insertGroupMember (groupId userId : Uuid)
  | deleteGroupMember (groupId userId : Uuid)
  | deleteGroupMembers (groupId : Uuid)
  | setDmAcl (groupId : Uuid) (enabled : Bool)
  | keycloakGroups
  | deactivateGroup (groupId : Uuid)
  -- syncables
  | activeSyncables (groupId : Uuid)
  | allSyncables (groupId : Uuid)
  | activeSyncable (key : SyncableKey)
  | upsertSyncable (key : SyncableKey) (autoAdd schemeAdmin : Bool)
  | patchSyncable (key : SyncableKey) (autoAdd schemeAdmin : Option Bool)
  | deleteSyncable (key : SyncableKey)
  | deleteSyncables (groupId : Uuid)
  -- memberships
  | channelTeam (channelId : Uuid)
  | trackedRows (key : SyncableKey)
  | ensureMembership (m : Membership) (role : String)
  | track (key : SyncableKey) (m : Membership)
  | untrack (key : SyncableKey) (m : Membership)
  | keptByOther (m : Membership)
  | deleteMembership (m : Membership)
  -- of other requests: an insert that leaves a row that is there or sets its role, the removal of rows, a user who
  -- is deleted, and whatever is written to the other tables
  | join (m : Membership) (role : String) (updateRole : Bool)
  | leave (ms : List Membership)
  | deleteUser (userId : Uuid)
  | change (d : Directory)

def SyncAct.Row : SyncAct → Type
  | hashOrder _ => List ℕ
  | fetchAdminToken => String
  | fetchGroups _ => List KeycloakTree
  | fetchGroupMembers _ _ => List String
  | upsertGroup _ _ _ => Uuid
  | usersByExternalId _ _ => List Uuid
  | userAuth _ => Option UserRow
  | groupUserIds _ => List Uuid
  | isGroupMember _ _ => Bool
  | insertGroupMember _ _ => Bool
  | deleteGroupMember _ _ => Bool
  | keycloakGroups => List (Uuid × String)
  | activeSyncables _ => List (SyncableKey × GroupSyncableRow)
  | allSyncables _ => List SyncableKey
  | activeSyncable _ => Option GroupSyncableRow
  | patchSyncable _ _ _ => Bool
  | deleteSyncable _ => Bool
  | channelTeam _ => Option Uuid
  | trackedRows _ => List Membership
  | ensureMembership _ _ => Bool
  | keptByOther _ => Bool
  | _ => Unit

abbrev SyncAct.Res (act : SyncAct) : Type := Except SyncError act.Row

/-- What becomes of a statement: it is carried out, it is not, or it is and the answer is lost. -/
inductive Fate
  | answered
  | refused
  | lost

/-- What a statement meets. -/
structure Meets where
  fate : Fate
  error : SyncError
  -- the order of the rows, or of a hash set
  order : List ℕ
  -- the id that the database makes up
  newId : Uuid
  token : String
  groups : List KeycloakTree
  groupMembers : List String

/-- The order of a hash set does not fail. -/
def SyncAct.isStatement : SyncAct → Bool
  | hashOrder _ => false
  | _ => true

def groupSourceKeycloak : String := "plugin_keycloak"

namespace Tables

variable (o : Meets) (db : Tables)

/-- A write that a foreign key may forbid. -/
def guarded {α : Type} (p : Prop) [Decidable p] (a : α) (db' : Tables) : Except SyncError α × Tables :=
  if p then (.ok a, db') else (.error .database, db)

def keycloakGroupId (remoteId : String) : Option Uuid :=
  (Assoc.views (fun id row => if row.source = groupSourceKeycloak ∧ row.remoteId = some remoteId then some id else none)
    db.groups).head?

def upsertGroup (remoteId displayName description : String) : Except SyncError Uuid × Tables :=
  let id := (db.keycloakGroupId remoteId).getD o.newId
  db.guarded (db.keycloakGroupId remoteId = none → o.newId ∉ db.groups) id
    { db with groups := db.groups.insert id ⟨displayName, description, groupSourceKeycloak, some remoteId, true, false⟩ }

def usersByExternalId (providerKey : String) (externalIds : List String) : List Uuid :=
  Assoc.views (fun id user => if user.deleted = false ∧ user.authProvider = some providerKey ∧
    user.authProviderId.any (· ∈ externalIds) then some id else none) db.users

def groupUserIds (groupId : Uuid) : List Uuid :=
  db.groupMembers.keys.filterMap fun k => if k.1 = groupId then some k.2 else none

def trackedRows (key : SyncableKey) : List Membership :=
  db.tracked.keys.filterMap fun k => if k.1 = key then some k.2 else none

def activeSyncables (groupId : Uuid) : List (SyncableKey × GroupSyncableRow) :=
  Assoc.views (fun key row => if key.groupId = groupId ∧ row.deleted = false then some (key, row) else none)
    db.groupSyncables

def allSyncables (groupId : Uuid) : List SyncableKey :=
  Assoc.views (fun key _ => if key.groupId = groupId then some key else none) db.groupSyncables

def keycloakGroups : List (Uuid × String) :=
  Assoc.views (fun id row => if row.source = groupSourceKeycloak ∧ row.deleted = false then row.remoteId.map (id, ·) else none)
    db.groups

def IsTracked (m : Membership) : Prop := ∃ k ∈ db.tracked.keys, k.2 = m

instance (m : Membership) : Decidable (db.IsTracked m) := inferInstanceAs (Decidable (∃ k ∈ _, _))

/-- `INSERT … ON CONFLICT DO NOTHING` by a sync. -/
def ensureMembership (m : Membership) (role : String) : Except SyncError Bool × Tables :=
  if m ∈ db.members then (.ok false, db)
  else db.guarded (db.HasTarget m ∧ m.userId ∈ db.users) true { db with members := db.members.insert m ⟨role, true⟩ }

def join (m : Membership) (role : String) (updateRole : Bool) : Except SyncError Unit × Tables :=
  match db.members.lookup m with
  | some row => (.ok (), if updateRole then { db with members := db.members.insert m { row with role } } else db)
  | none => db.guarded (db.HasTarget m ∧ m.userId ∈ db.users) () { db with members := db.members.insert m ⟨role, false⟩ }

def execute : (act : SyncAct) → act.Res × Tables
  | .hashOrder _ => (.ok o.order, db)
  | .fetchAdminToken => (.ok o.token, db)
  | .fetchGroups _ => (.ok o.groups, db)
  | .fetchGroupMembers _ _ => (.ok o.groupMembers, db)
  | .upsertGroup remoteId displayName description => db.upsertGroup o remoteId displayName description
  | .usersByExternalId providerKey externalIds => (.ok (List.reorder o.order (db.usersByExternalId providerKey externalIds)), db)
  | .userAuth userId => (.ok (db.users.lookup userId), db)
  | .groupUserIds groupId => (.ok (List.reorder o.order (db.groupUserIds groupId)), db)
  | .isGroupMember groupId userId => (.ok (decide ((groupId, userId) ∈ db.groupMembers)), db)
  | .insertGroupMember groupId userId =>
    if (groupId, userId) ∈ db.groupMembers then (.ok false, db)
    else db.guarded (groupId ∈ db.groups ∧ userId ∈ db.users) true
      { db with groupMembers := db.groupMembers.insert (groupId, userId) () }
  | .deleteGroupMember groupId userId =>
    (.ok (decide ((groupId, userId) ∈ db.groupMembers)), { db with groupMembers := db.groupMembers.erase (groupId, userId) })
  | .deleteGroupMembers groupId => (.ok (), { db with groupMembers := Assoc.eraseWhere (·.1 = groupId) db.groupMembers })
  | .setDmAcl groupId enabled =>
    db.guarded (groupId ∈ db.groups) () { db with groupDmAclFlags := db.groupDmAclFlags.insert groupId enabled }
  | .keycloakGroups => (.ok (List.reorder o.order db.keycloakGroups), db)
  | .deactivateGroup groupId =>
    (.ok (), { db with groups := Assoc.modify groupId (fun row => { row with deleted := true }) db.groups })
  | .activeSyncables groupId => (.ok (List.reorder o.order (db.activeSyncables groupId)), db)
  | .allSyncables groupId => (.ok (List.reorder o.order (db.allSyncables groupId)), db)
  | .activeSyncable key => (.ok ((db.groupSyncables.lookup key).filter (·.deleted = false)), db)
  | .upsertSyncable key autoAdd schemeAdmin =>
    db.guarded (key.groupId ∈ db.groups) ()
      { db with groupSyncables := db.groupSyncables.insert key ⟨autoAdd, schemeAdmin, false⟩ }
  | .patchSyncable key autoAdd schemeAdmin =>
    match db.groupSyncables.lookup key with
    | some ⟨autoAdd₀, schemeAdmin₀, false⟩ =>
      (.ok true, { db with groupSyncables :=
        db.groupSyncables.insert key ⟨autoAdd.getD autoAdd₀, schemeAdmin.getD schemeAdmin₀, false⟩ })
    | _ => (.ok false, db)
  | .deleteSyncable key =>
    (.ok (decide (key ∈ db.groupSyncables)), { db with groupSyncables := db.groupSyncables.erase key })
  | .deleteSyncables groupId => (.ok (), { db with groupSyncables := Assoc.eraseWhere (·.groupId = groupId) db.groupSyncables })
  | .channelTeam channelId => (.ok (db.channels.lookup channelId), db)
  | .trackedRows key => (.ok (List.reorder o.order (db.trackedRows key)), db)
  | .ensureMembership m role => db.ensureMembership m role
  | .track key m =>
    db.guarded (key.groupId ∈ db.groups ∧ m.userId ∈ db.users) () { db with tracked := db.tracked.insert (key, m) () }
  | .untrack key m => (.ok (), { db with tracked := db.tracked.erase (key, m) })
  | .keptByOther m => (.ok (decide (db.IsTracked m)), db)
  | .deleteMembership m => (.ok (), { db with members := db.members.erase m })
  | .join m role updateRole => db.join m role updateRole
  | .leave ms => (.ok (), { db with members := ms.foldl (fun members m => members.erase m) db.members })
  | .deleteUser userId =>
    (.ok (), { db with
      users := db.users.erase userId
      groupMembers := Assoc.eraseWhere (·.2 = userId) db.groupMembers
      tracked := Assoc.eraseWhere (·.2.userId = userId) db.tracked
      members := Assoc.eraseWhere (·.userId = userId) db.members })
  | .change d => (.ok (), { db with toDirectory := d })

def perform (act : SyncAct) : act.Res × Tables :=
  match if act.isStatement then o.fate else .answered with
  | .answered => db.execute o act
  | .refused => (.error o.error, db)
  | .lost => (.error o.error, (db.execute o act).2)

end Tables

abbrev SyncProg := ExceptT SyncError (Prog SyncAct SyncAct.Res)

def ask (act : SyncAct) : SyncProg act.Row := ExceptT.mk (Prog.call act)

/-- The elements of a hash set in the order of its iteration. -/
def hashIter {α : Type} (site : HashSite) (items : List α) : SyncProg (List α) := do
  let order : List ℕ ← ask (.hashOrder site)
  pure (List.reorder order items)

def cleanupTrackingMembership (key : SyncableKey) (tracked : Membership) : SyncProg PUnit := do
  ask (.untrack key tracked)
  let keptByOther : Bool ← ask (.keptByOther tracked)
  if keptByOther then pure () else ask (.deleteMembership tracked)

def desiredMemberships (key : SyncableKey) (autoAdd : Bool) (groupUserIds : List Uuid) :
    SyncProg (List Membership) :=
  if autoAdd then
    match key.kind with
    | .team => pure (groupUserIds.map fun userId => ⟨.team, key.syncableId, userId⟩)
    | .channel => do
      let channelTeamId : Option Uuid ← ask (.channelTeam key.syncableId)
      match channelTeamId with
      | none => throw (.notFound "Channel not found")
      | some channelTeamId =>
        pure (groupUserIds.flatMap fun userId => [⟨.team, channelTeamId, userId⟩, ⟨.channel, key.syncableId, userId⟩])
  else pure []

def addMembership (key : SyncableKey) (schemeAdmin : Bool) (desired : Membership) : SyncProg PUnit := do
  let inserted : Bool ← ask (.ensureMembership desired (if schemeAdmin then "admin" else "member"))
  if inserted then ask (.track key desired) else pure ()

def reconcileGroupSyncable (key : SyncableKey) : SyncProg PUnit := do
  let syncable : Option GroupSyncableRow ← ask (.activeSyncable key)
  match syncable with
  | none => pure ()
  | some syncable =>
    let groupUserIds : List Uuid ← ask (.groupUserIds key.groupId)
    let desired ← desiredMemberships key syncable.autoAdd groupUserIds
    let existingTracked : List Membership ← ask (.trackedRows key)
    let order ← hashIter (.desired key) desired.dedup
    order.forM fun m => if m ∈ existingTracked then pure () else addMembership key syncable.schemeAdmin m
    existingTracked.forM fun m => if m ∈ desired then pure () else cleanupTrackingMembership key m

def reconcileGroupSyncables (groupId : Uuid) : SyncProg PUnit := do
  let rows : List (SyncableKey × GroupSyncableRow) ← ask (.activeSyncables groupId)
  rows.forM fun row => reconcileGroupSyncable row.1

/-- The task that a request about members spawns: an error is logged, and the next syncable comes. -/
def spawnReconcileGroupSyncables (groupId : Uuid) : SyncProg PUnit := do
  let rows : List (SyncableKey × GroupSyncableRow) ← ask (.activeSyncables groupId)
  rows.forM fun row => tryCatch (reconcileGroupSyncable row.1) fun _ => pure ()

def cleanupUnlinkedSyncable (key : SyncableKey) : SyncProg PUnit := do
  let trackedRows : List Membership ← ask (.trackedRows key)
  trackedRows.forM fun m => cleanupTrackingMembership key m

/-! ### The sync -/

structure SyncConfig where
  adminBaseUrl : String
  realm : String
  clientId : String
  clientSecret : String
  providerKey : String

structure KeycloakSyncReport where
  groupsProcessed : ℕ
  groupsUpserted : ℕ
  groupMembersAdded : ℕ
  groupMembersRemoved : ℕ
  syncablesUpserted : ℕ
  syncablesRemoved : ℕ
  usersMapped : ℕ

def KeycloakSyncReport.empty : KeycloakSyncReport := ⟨0, 0, 0, 0, 0, 0, 0⟩

def validateSyncConfig (config : SyncConfig) : SyncProg PUnit :=
  if trimText config.adminBaseUrl = "" ∨ trimText config.realm = "" ∨ trimText config.clientId = "" ∨
      trimText config.clientSecret = "" then throw (.config "Keycloak sync config is incomplete")
  else pure ()

def upsertGroup (group : KeycloakGroup) : SyncProg Uuid :=
  ask (.upsertGroup group.id (if trimText group.name = "" then group.path.getD group.id else group.name)
    (group.path.getD ""))

def resolveRustchatUsers (providerKey : String) (externalIds : List String) : SyncProg (List Uuid) :=
  if externalIds = [] then pure [] else ask (.usersByExternalId providerKey externalIds)

def syncGroupMembers (groupId : Uuid) (desiredUserIds : List Uuid) : SyncProg (ℕ × ℕ) := do
  let currentUserIds : List Uuid ← ask (.groupUserIds groupId)
  let missing ← hashIter (.added groupId) (desiredUserIds.filter (· ∉ currentUserIds))
  let added ← missing.foldlM (fun (n : ℕ) userId => do
    let created : Bool ← ask (.insertGroupMember groupId userId)
    pure (if created then n + 1 else n)) 0
  let surplus ← hashIter (.removed groupId) (currentUserIds.filter (· ∉ desiredUserIds))
  let removed ← surplus.foldlM (fun (n : ℕ) userId => do
    let deleted : Bool ← ask (.deleteGroupMember groupId userId)
    pure (if deleted then n + 1 else n)) 0
  pure (added, removed)

def attributeSyncables (parseUuid : String → Option Uuid) (groupId : Uuid) (group : KeycloakGroup) :
    SyncableKind → List SyncableKey
  | .team => (parseUuidAttributeList parseUuid group.attributes "rustchat_team_ids").map (⟨groupId, .team, ·⟩)
  | .channel => (parseUuidAttributeList parseUuid group.attributes "rustchat_channel_ids").map (⟨groupId, .channel, ·⟩)

/-- Upsert a syncable that is not there as it is wanted. -/
def upsertAttributeSyncable (autoAdd schemeAdmin : Bool) (current : List (SyncableKey × GroupSyncableRow))
    (changed : List (SyncableKey × Bool)) (key : SyncableKey) : SyncProg (List (SyncableKey × Bool)) :=
  if current.any fun row => row.1 = key ∧ row.2.autoAdd = autoAdd ∧
    row.2.schemeAdmin = schemeAdmin then pure changed
  else do
    ask (.upsertSyncable key autoAdd schemeAdmin)
    pure (changed ++ [(key, false)])

/-- The syncables that are changed, with whether the link is removed. -/
def syncGroupSyncablesFromAttributes (parseUuid : String → Option Uuid) (groupId : Uuid) (group : KeycloakGroup) :
    SyncProg (List (SyncableKey × Bool)) := do
  let autoAdd := (parseBoolAttribute group.attributes "rustchat_auto_add").getD true
  let schemeAdmin := (parseBoolAttribute group.attributes "rustchat_scheme_admin").getD false
  let desiredTeams := attributeSyncables parseUuid groupId group .team
  let desiredChannels := attributeSyncables parseUuid groupId group .channel
  let current : List (SyncableKey × GroupSyncableRow) ← ask (.activeSyncables groupId)
  let teams ← hashIter (.teams groupId) desiredTeams
  let changed ← teams.foldlM (upsertAttributeSyncable autoAdd schemeAdmin current) []
  let channels ← hashIter (.channels groupId) desiredChannels
  let changed ← channels.foldlM (upsertAttributeSyncable autoAdd schemeAdmin current) changed
  -- every key that is wanted has been taken out of the map
  let unlinked ← hashIter (.unlinked groupId) (current.filter fun row => row.1 ∉ desiredTeams ++ desiredChannels)
  unlinked.foldlM (fun changed row => do
    let _ : Bool ← ask (.deleteSyncable row.1)
    pure (changed ++ [(row.1, true)])) changed

def reconcileChanged (change : SyncableKey × Bool) : SyncProg PUnit :=
  if change.2 then cleanupUnlinkedSyncable change.1 else reconcileGroupSyncable change.1

def syncGroup (config : SyncConfig) (parseUuid : String → Option Uuid) (token : String) (report : KeycloakSyncReport)
    (kcGroup : KeycloakGroup) : SyncProg KeycloakSyncReport := do
  let groupId ← upsertGroup kcGroup
  let kcMembers : List String ← ask (.fetchGroupMembers token kcGroup.id)
  let desiredUserIds ← resolveRustchatUsers config.providerKey kcMembers
  let (added, removed) ← syncGroupMembers groupId desiredUserIds
  ask (.setDmAcl groupId ((parseBoolAttribute kcGroup.attributes "rustchat_dm_acl").getD false))
  let changed ← syncGroupSyncablesFromAttributes parseUuid groupId kcGroup
  reconcileGroupSyncables groupId
  changed.forM reconcileChanged
  pure {
    groupsProcessed := report.groupsProcessed + 1
    groupsUpserted := report.groupsUpserted + 1
    groupMembersAdded := report.groupMembersAdded + added
    groupMembersRemoved := report.groupMembersRemoved + removed
    syncablesUpserted := report.syncablesUpserted + changed.countP (!·.2)
    syncablesRemoved := report.syncablesRemoved + changed.countP (·.2)
    usersMapped := report.usersMapped + desiredUserIds.length }

def deactivateGroup (groupId : Uuid) : SyncProg PUnit := do
  let syncables : List SyncableKey ← ask (.allSyncables groupId)
  syncables.forM cleanupUnlinkedSyncable
  ask (.deleteSyncables groupId)
  ask (.deleteGroupMembers groupId)
  ask (.setDmAcl groupId false)
  ask (.deactivateGroup groupId)

def deactivateRemovedKeycloakGroups (desiredRemoteIds : List String) : SyncProg PUnit := do
  let existing : List (Uuid × String) ← ask .keycloakGroups
  existing.forM fun group => if group.2 ∈ desiredRemoteIds then pure () else deactivateGroup group.1

def runFullSync (config : SyncConfig) (parseUuid : String → Option Uuid) : SyncProg KeycloakSyncReport := do
  validateSyncConfig config
  let token : String ← ask .fetchAdminToken
  let trees : List KeycloakTree ← ask (.fetchGroups token)
  let groups := flattenGroups trees
  let report ← groups.foldlM (syncGroup config parseUuid token) .empty
  deactivateRemovedKeycloakGroups (groups.map (·.id))
  pure report

def resyncGroup (token externalId : String) (userId : Uuid) (report : KeycloakSyncReport) (kcGroup : KeycloakGroup) :
    SyncProg KeycloakSyncReport := do
  let groupId ← upsertGroup kcGroup
  ask (.setDmAcl groupId ((parseBoolAttribute kcGroup.attributes "rustchat_dm_acl").getD false))
  let members : List String ← ask (.fetchGroupMembers token kcGroup.id)
  let isMember := decide (externalId ∈ members)
  let currentlyMember : Bool ← ask (.isGroupMember groupId userId)
  let report := { report with
    groupsUpserted := report.groupsUpserted + 1, groupsProcessed := report.groupsProcessed + 1 }
  if isMember && !currentlyMember then do
    let _ : Bool ← ask (.insertGroupMember groupId userId)
    reconcileGroupSyncables groupId
    pure { report with groupMembersAdded := report.groupMembersAdded + 1 }
  else if !isMember && currentlyMember then do
    let _ : Bool ← ask (.deleteGroupMember groupId userId)
    reconcileGroupSyncables groupId
    pure { report with groupMembersRemoved := report.groupMembersRemoved + 1 }
  else pure report

def resyncUser (config : SyncConfig) (userId : Uuid) : SyncProg KeycloakSyncReport := do
  validateSyncConfig config
  let user : Option UserRow ← ask (.userAuth userId)
  match user with
  | none => throw (.notFound "User not found")
  | some user =>
    match if user.authProvider = some config.providerKey then user.authProviderId else none with
    | none => pure .empty
    | some externalId =>
      let token : String ← ask .fetchAdminToken
      let trees : List KeycloakTree ← ask (.fetchGroups token)
      (flattenGroups trees).foldlM (resyncGroup token externalId userId) { KeycloakSyncReport.empty with usersMapped := 1 }

/-! ### Requests -/

inductive SyncRequest
  | runFullSync
  | resyncUser (userId : Uuid)
  -- `api/v4/groups.rs`
  | linkGroupSyncable (key : SyncableKey) (autoAdd schemeAdmin : Option Bool)
  | unlinkGroupSyncable (key : SyncableKey)
  | patchGroupSyncable (key : SyncableKey) (autoAdd schemeAdmin : Option Bool)
  | addGroupMembers (groupId : Uuid) (userIds : List Uuid)
  | deleteGroupMembers (groupId : Uuid) (userIds : List Uuid)
  -- one statement of another request
  | join (m : Membership) (role : String) (updateRole : Bool)
  | leave (ms : List Membership)
  | deleteUser (userId : Uuid)
  | change (d : Directory)

def SyncRequest.isOther : SyncRequest → Bool
  | .join _ _ _ => true
  | .leave _ => true
  | .deleteUser _ => true
  | .change _ => true
  | _ => false

def SyncRequest.program (config : SyncConfig) (parseUuid : String → Option Uuid) : SyncRequest → SyncProg PUnit
  | .runFullSync => do
    let _ ← Keycloak.runFullSync config parseUuid
    pure ()
  | .resyncUser userId => do
    let _ ← Keycloak.resyncUser config userId
    pure ()
  | .linkGroupSyncable key autoAdd schemeAdmin => do
    ask (.upsertSyncable key (autoAdd.getD false) (schemeAdmin.getD false))
    reconcileGroupSyncable key
  | .unlinkGroupSyncable key => do
    let deleted : Bool ← ask (.deleteSyncable key)
    if deleted then cleanupUnlinkedSyncable key else throw (.notFound "Group syncable not found")
  | .patchGroupSyncable key autoAdd schemeAdmin => do
    let patched : Bool ← ask (.patchSyncable key autoAdd schemeAdmin)
    if patched then reconcileGroupSyncable key else throw (.notFound "Group syncable not found")
  | .addGroupMembers groupId userIds => do
    userIds.forM fun userId => do
      let _ : Bool ← ask (.insertGroupMember groupId userId)
      pure ()
    spawnReconcileGroupSyncables groupId
  | .deleteGroupMembers groupId userIds => do
    userIds.forM fun userId => do
      let _ : Bool ← ask (.deleteGroupMember groupId userId)
      pure ()
    spawnReconcileGroupSyncables groupId
  | .join m role updateRole => ask (.join m role updateRole)
  | .leave ms => ask (.leave ms)
  | .deleteUser userId => ask (.deleteUser userId)
  | .change d => ask (.change d)

end Keycloak

end Rustchat
