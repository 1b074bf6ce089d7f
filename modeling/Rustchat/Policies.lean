import Mathlib.Data.Prod.Lex
import Rustchat.EmailAccounts
import Rustchat.Lib.Page

/-!
# Policies for memberships (`services/membership_policies.rs`, `services/membership_reconciliation.rs`)

A policy names its users by where they come from. `get_applicable_policies` asks one user after another, the job that
applies a policy selects all of its users with one query for each kind of source. `Policies.selected_iff_applicable` says
that both choose the same users, whatever the configuration of the source is; the job then goes on from the teams of
each.
-/

namespace Rustchat

namespace Policies

inductive PolicySourceType
  | allUsers
  | authService
  | group
  | role
  | org
deriving DecidableEq

inductive PolicyScopeType
  | global
  | team
deriving DecidableEq

inductive PolicyTargetType
  | team
  | channel
deriving DecidableEq

inductive RoleMode
  | member
  | admin
deriving DecidableEq

/-- `scope_type` and `team_id`: a check of the table has a team for the policies of teams and for no others. -/
inductive PolicyScope
  | global
  | team (teamId : Uuid)
deriving DecidableEq

def PolicyScope.scopeType : PolicyScope → PolicyScopeType
  | global => .global
  | team _ => .team

def PolicyScope.teamId : PolicyScope → Option Uuid
  | global => none
  | team teamId => some teamId

structure AutoMembershipPolicy where
  scope : PolicyScope
  sourceType : PolicySourceType
  sourceConfig : Json
  enabled : Bool
  priority : Int
  createdAt : Int

structure AutoMembershipPolicyTarget where
  targetType : PolicyTargetType
  targetId : Uuid
  roleMode : RoleMode

structure PolicyWithTargets where
  id : Uuid
  policy : AutoMembershipPolicy
  targets : List AutoMembershipPolicyTarget

/-- A row of `users`. -/
structure PolicyUser where
  authProvider : Option String
  role : String
  orgId : Option Uuid
  deletedAt : Option Int

/-- What neither the job nor the policies change. -/
structure Tables where
  users : Assoc Uuid PolicyUser
  -- `display_name`
  groups : Assoc Uuid String
  -- group and user
  groupMembers : List (Uuid × Uuid)
  teams : List Uuid
  -- the team of each channel
  channels : Assoc Uuid Uuid
  policies : Assoc Uuid AutoMembershipPolicy
  -- with the policy
  targets : List (Uuid × AutoMembershipPolicyTarget)

/-! ### Configurations -/

/-- The parts of a text between commas, without blanks around them and without empty ones. -/
def textParts (raw : String) : List String :=
  ((raw.toList.splitOn ',').map fun part => trimText (String.ofList part)).filter (· ≠ "")

def extractStringValues (config : Json) (keys : List String) : List String :=
  (keys.flatMap fun key => match config.get? key with
    | some (.str raw) => textParts raw
    | some (.arr items) => items.flatMap fun item => (item.asStr.map textParts).getD []
    | _ => []).dedup

variable (parseUuid : String → Option Uuid)

def extractUuidValues (config : Json) (keys : List String) : List Uuid :=
  (extractStringValues config keys).filterMap parseUuid

/-- Both names of the key are accepted. -/
def configAuth (config : Json) : Option String :=
  ((config.get? "auth_provider").bind Json.asStr).or ((config.get? "auth_service").bind Json.asStr)

variable (maps : CaseMaps)

namespace Tables

variable (db : Tables)

def withTargets (id : Uuid) (policy : AutoMembershipPolicy) : PolicyWithTargets :=
  ⟨id, policy, (db.targets.filter fun t => t.1 = id).map Prod.snd⟩

/-- `priority DESC, created_at ASC` -/
def listKey (policy : AutoMembershipPolicy) : Int ×ₗ Int := toLex (-policy.priority, policy.createdAt)

def listPolicies (scopeType : Option PolicyScopeType) (teamId : Option Uuid) (enabled : Option Bool) :
    List PolicyWithTargets :=
  let rows := db.policies.entries.filter fun e =>
    scopeType.all (· = e.2.scope.scopeType) && teamId.all (some · = e.2.scope.teamId) && enabled.all (· = e.2.enabled)
  (Page.orderBy (fun e => listKey e.2) rows).map fun e => db.withTargets e.1 e.2

def isApplicable (userId : Uuid) (user : PolicyUser) (policy : AutoMembershipPolicy) : Bool :=
  match policy.sourceType with
  | .allUsers => true
  | .authService =>
    (configAuth policy.sourceConfig).isNone || configAuth policy.sourceConfig = user.authProvider
  | .group =>
    let groupIds := extractUuidValues parseUuid policy.sourceConfig ["group_ids", "group_id"]
    let groupNames := extractStringValues policy.sourceConfig ["group_names", "names"]
    if groupIds = [] ∧ groupNames = [] then false
    else
      let hasIdMatch := if groupIds ≠ [] then db.groupMembers.any fun gm => gm.2 = userId && gm.1 ∈ groupIds else false
      let hasNameMatch :=
        if groupNames ≠ [] then db.groupMembers.any fun gm => gm.2 = userId &&
          (db.groups.lookup gm.1).any fun name => maps.lower name ∈ groupNames.map maps.toLowercase
        else false
      hasIdMatch || hasNameMatch
  | .role =>
    let roles := extractStringValues policy.sourceConfig ["roles", "role"]
    if roles = [] then false else user.role ∈ roles
  | .org =>
    let orgIds := extractUuidValues parseUuid policy.sourceConfig ["org_ids", "org_id"]
    if orgIds = [] then false else user.orgId.any (· ∈ orgIds)

def getApplicablePolicies (userId : Uuid) (teamId : Option Uuid) : List PolicyWithTargets :=
  match db.users.lookup userId with
  | none => []
  | some user =>
    let globalPolicies := db.listPolicies (some .global) none (some true)
    let teamPolicies := teamId.elim [] fun teamId => db.listPolicies (some .team) (some teamId) (some true)
    let applicable := (globalPolicies ++ teamPolicies).filter fun p =>
      db.isApplicable parseUuid maps userId user p.policy
    applicable.mergeSort fun a b => decide (b.policy.priority ≤ a.policy.priority)

/-! ### The job -/

/-- `SELECT id FROM users WHERE deleted_at IS NULL AND …` -/
def liveUsers (p : Uuid → PolicyUser → Bool) : List Uuid :=
  (db.users.entries.filter fun e => e.2.deletedAt.isNone && p e.1 e.2).map fun e => e.1

/-- The users that `apply_policy` selects for a policy. -/
def selectUsers (policy : AutoMembershipPolicy) : List Uuid :=
  match policy.sourceType with
  | .allUsers => db.liveUsers fun _ _ => true
  | .authService =>
    match configAuth policy.sourceConfig with
    | some provider => db.liveUsers fun _ user => user.authProvider = some provider
    | none => db.liveUsers fun _ _ => true
  | .group =>
    let groupIds := extractUuidValues parseUuid policy.sourceConfig ["group_ids", "group_id"]
    let groupNames := extractStringValues policy.sourceConfig ["group_names", "names"]
    let userIdsById :=
      if groupIds ≠ [] then db.liveUsers fun id _ => db.groupMembers.any fun gm => gm.2 = id && gm.1 ∈ groupIds else []
    let userIdsByName :=
      if groupNames ≠ [] then db.liveUsers fun id _ => db.groupMembers.any fun gm => gm.2 = id &&
        (db.groups.lookup gm.1).any fun name => maps.lower name ∈ groupNames.map maps.toLowercase
      else []
    (userIdsById ++ userIdsByName).dedup
  | .role =>
    let roles := extractStringValues policy.sourceConfig ["roles", "role"]
    if roles = [] then [] else db.liveUsers fun _ user => user.role ∈ roles
  | .org =>
    let orgIds := extractUuidValues parseUuid policy.sourceConfig ["org_ids", "org_id"]
    if orgIds = [] then [] else db.liveUsers fun _ user => user.orgId.any (· ∈ orgIds)

/-- The `user_ids` of `apply_policy`, before it asks for the teams of each. -/
def policyUsers (policyId : Uuid) : List Uuid :=
  match db.policies.lookup policyId with
  | some policy => if policy.enabled then db.selectUsers parseUuid maps policy else []
  | none => []

/-- The users that the source of a policy names, each kind in its own words. -/
def Names (policy : AutoMembershipPolicy) (userId : Uuid) (user : PolicyUser) : Prop :=
  match policy.sourceType with
  | .allUsers => True
  | .authService => ∀ provider, configAuth policy.sourceConfig = some provider → user.authProvider = some provider
  | .group => ∃ groupId, (groupId, userId) ∈ db.groupMembers ∧
      (groupId ∈ extractUuidValues parseUuid policy.sourceConfig ["group_ids", "group_id"] ∨
        ∃ displayName, db.groups.lookup groupId = some displayName ∧
          ∃ name ∈ extractStringValues policy.sourceConfig ["group_names", "names"],
            maps.lower displayName = maps.toLowercase name)
  | .role => user.role ∈ extractStringValues policy.sourceConfig ["roles", "role"]
  | .org => ∃ orgId, user.orgId = some orgId ∧ orgId ∈ extractUuidValues parseUuid policy.sourceConfig ["org_ids", "org_id"]

variable {parseUuid maps db} {userId policyId : Uuid} {p : PolicyWithTargets}

theorem isApplicable_iff {user : PolicyUser} {policy : AutoMembershipPolicy} :
    db.isApplicable parseUuid maps userId user policy = true ↔ db.Names parseUuid maps policy userId user := by
  unfold isApplicable Names
  cases policy.sourceType with
  | allUsers => simp
  | authService =>
    cases configAuth policy.sourceConfig with
    | none => simp
    | some provider => simp [eq_comm]
  | group =>
    dsimp only
    generalize extractUuidValues parseUuid policy.sourceConfig ["group_ids", "group_id"] = groupIds
    generalize extractStringValues policy.sourceConfig ["group_names", "names"] = groupNames
    have hids : (if groupIds ≠ [] then db.groupMembers.any fun gm => gm.2 = userId && gm.1 ∈ groupIds else false) = true ↔
        ∃ groupId, (groupId, userId) ∈ db.groupMembers ∧ groupId ∈ groupIds := by
      by_cases h : groupIds = []
      · simp [h]
      · simp [h]
    have hnames : (if groupNames ≠ [] then db.groupMembers.any fun gm => gm.2 = userId &&
          (db.groups.lookup gm.1).any fun name => maps.lower name ∈ groupNames.map maps.toLowercase else false) = true ↔
        ∃ groupId, (groupId, userId) ∈ db.groupMembers ∧ ∃ displayName, db.groups.lookup groupId = some displayName ∧
          ∃ name ∈ groupNames, maps.lower displayName = maps.toLowercase name := by
      by_cases h : groupNames = []
      · simp [h]
      · simp only [if_pos h, List.any_eq_true, Bool.and_eq_true, decide_eq_true_eq, Option.any_eq_true, List.mem_map]
        constructor
        · rintro ⟨⟨groupId, _⟩, hgm, rfl, displayName, hgroup, name, hname, heq⟩
          exact ⟨groupId, hgm, displayName, hgroup, name, hname, heq.symm⟩
        · rintro ⟨groupId, hgm, displayName, hgroup, name, hname, heq⟩
          exact ⟨(groupId, userId), hgm, rfl, displayName, hgroup, name, hname, heq.symm⟩
    split
    · next hempty => simp [hempty.1, hempty.2]
    · rw [Bool.or_eq_true, hids, hnames, ← exists_or]
      exact exists_congr fun groupId => and_or_left.symm
  | role =>
    dsimp only
    split
    · next hroles => simp [hroles]
    · simp
  | org =>
    dsimp only
    split
    · next horgs => simp [horgs]
    · cases user.orgId with
      | none => simp
      | some orgId => simp

theorem mem_listPolicies {scopeType : Option PolicyScopeType} {teamId : Option Uuid} {enabled : Option Bool} :
    p ∈ db.listPolicies scopeType teamId enabled ↔ ∃ policy, db.policies.lookup p.id = some policy ∧
      p = db.withTargets p.id policy ∧ (∀ t ∈ scopeType, t = policy.scope.scopeType) ∧
      (∀ t ∈ teamId, some t = policy.scope.teamId) ∧ ∀ b ∈ enabled, b = policy.enabled := by
  unfold listPolicies
  simp only [List.mem_map, Page.orderBy_perm.mem_iff, List.mem_filter, Bool.and_eq_true, Option.all_eq_true,
    decide_eq_true_eq]
  constructor
  · rintro ⟨⟨id, policy⟩, ⟨he, ⟨hscope, hteam⟩, henabled⟩, rfl⟩
    exact ⟨policy, Assoc.mem_entries_iff.1 he, rfl, hscope, hteam, henabled⟩
  · rintro ⟨policy, hlookup, hp, hscope, hteam, henabled⟩
    exact ⟨⟨p.id, policy⟩, ⟨Assoc.mem_entries_iff.2 hlookup, ⟨hscope, hteam⟩, henabled⟩, hp.symm⟩

/-- The policies of a team are asked for with the team, the global ones always. -/
def Covers (scope : PolicyScope) (teamId : Option Uuid) : Prop := ∀ t, scope.teamId = some t → teamId = some t

theorem mem_listed {teamId : Option Uuid} :
    p ∈ db.listPolicies (some .global) none (some true) ++
        teamId.elim [] (fun teamId => db.listPolicies (some .team) (some teamId) (some true)) ↔
      ∃ policy, db.policies.lookup p.id = some policy ∧ p = db.withTargets p.id policy ∧ policy.enabled = true ∧
        Covers policy.scope teamId := by
  rw [List.mem_append]
  constructor
  · rintro (h | h)
    · obtain ⟨policy, hlookup, hp, hscope, -, henabled⟩ := mem_listPolicies.1 h
      refine ⟨policy, hlookup, hp, (henabled true rfl).symm, fun t ht => ?_⟩
      have hglobal := hscope .global rfl
      cases hs : policy.scope with
      | global =>
        rw [hs] at ht
        cases ht
      | team t' =>
        rw [hs] at hglobal
        cases hglobal
    · cases teamId with
      | none => cases h
      | some t' =>
        obtain ⟨policy, hlookup, hp, -, hteam, henabled⟩ := mem_listPolicies.1 h
        exact ⟨policy, hlookup, hp, (henabled true rfl).symm, fun t ht => (hteam t' rfl).trans ht⟩
  · rintro ⟨policy, hlookup, hp, henabled, hcovers⟩
    cases hs : policy.scope with
    | global =>
      left
      refine mem_listPolicies.2 ⟨policy, hlookup, hp, ?_, ?_, ?_⟩
      · rintro t ⟨⟩
        rw [hs]
        rfl
      · rintro t ⟨⟩
      · rintro b ⟨⟩
        exact henabled.symm
    | team t' =>
      right
      obtain rfl := hcovers t' (by rw [hs]; rfl)
      refine mem_listPolicies.2 ⟨policy, hlookup, hp, ?_, ?_, ?_⟩
      · rintro t ⟨⟩
        rw [hs]
        rfl
      · rintro t ⟨⟩
        rw [hs]
        rfl
      · rintro b ⟨⟩
        exact henabled.symm

theorem mem_getApplicablePolicies {teamId : Option Uuid} :
    p ∈ db.getApplicablePolicies parseUuid maps userId teamId ↔ ∃ user policy, db.users.lookup userId = some user ∧
      db.policies.lookup p.id = some policy ∧ p = db.withTargets p.id policy ∧ policy.enabled = true ∧
      db.isApplicable parseUuid maps userId user policy = true ∧ Covers policy.scope teamId := by
  unfold getApplicablePolicies
  cases huser : db.users.lookup userId with
  | none => simp
  | some user =>
    dsimp only
    rw [(List.mergeSort_perm _ _).mem_iff, List.mem_filter, mem_listed]
    constructor
    · rintro ⟨⟨policy, hlookup, hp, henabled, hcovers⟩, happlicable⟩
      rw [hp] at happlicable
      exact ⟨user, policy, rfl, hlookup, hp, henabled, happlicable, hcovers⟩
    · rintro ⟨user', policy, huser', hlookup, hp, henabled, happlicable, hcovers⟩
      obtain rfl := Option.some.inj huser'
      refine ⟨⟨policy, hlookup, hp, henabled, hcovers⟩, ?_⟩
      rw [hp]
      exact happlicable

theorem mem_liveUsers {p : Uuid → PolicyUser → Bool} : userId ∈ db.liveUsers p ↔
    ∃ user, db.users.lookup userId = some user ∧ user.deletedAt = none ∧ p userId user = true := by
  unfold liveUsers
  simp only [List.mem_map, List.mem_filter, Bool.and_eq_true, Option.isNone_iff_eq_none]
  constructor
  · rintro ⟨⟨id, user⟩, ⟨he, hlive, hp⟩, rfl⟩
    exact ⟨user, Assoc.mem_entries_iff.1 he, hlive, hp⟩
  · rintro ⟨user, hlookup, hlive, hp⟩
    exact ⟨⟨userId, user⟩, ⟨Assoc.mem_entries_iff.2 hlookup, hlive, hp⟩, rfl⟩

theorem mem_selectUsers {policy : AutoMembershipPolicy} : userId ∈ db.selectUsers parseUuid maps policy ↔
    ∃ user, db.users.lookup userId = some user ∧ user.deletedAt = none ∧
      db.isApplicable parseUuid maps userId user policy = true := by
  unfold selectUsers isApplicable
  cases policy.sourceType with
  | allUsers => exact mem_liveUsers
  | authService =>
    cases hauth : configAuth policy.sourceConfig with
    | none => simp [mem_liveUsers]
    | some provider => simp [mem_liveUsers, eq_comm]
  | group =>
    dsimp only
    generalize extractUuidValues parseUuid policy.sourceConfig ["group_ids", "group_id"] = groupIds
    generalize extractStringValues policy.sourceConfig ["group_names", "names"] = groupNames
    rw [List.mem_dedup, List.mem_append]
    by_cases hids : groupIds = [] <;> by_cases hnames : groupNames = []
    · simp [hids, hnames]
    · simp [hids, hnames, mem_liveUsers]
    · simp [hids, hnames, mem_liveUsers]
    · simp only [hids, hnames, ne_eq, not_false_eq_true, if_true, mem_liveUsers, and_self, if_false,
        Bool.or_eq_true]
      constructor
      · rintro (⟨user, hlookup, hlive, hp⟩ | ⟨user, hlookup, hlive, hp⟩)
        · exact ⟨user, hlookup, hlive, .inl hp⟩
        · exact ⟨user, hlookup, hlive, .inr hp⟩
      · rintro ⟨user, hlookup, hlive, hp | hp⟩
        · exact .inl ⟨user, hlookup, hlive, hp⟩
        · exact .inr ⟨user, hlookup, hlive, hp⟩
  | role =>
    dsimp only
    split
    · simp
    · exact mem_liveUsers
  | org =>
    dsimp only
    split
    · simp
    · exact mem_liveUsers

theorem mem_policyUsers : userId ∈ db.policyUsers parseUuid maps policyId ↔
    ∃ user policy, db.users.lookup userId = some user ∧ user.deletedAt = none ∧
      db.policies.lookup policyId = some policy ∧ policy.enabled = true ∧
      db.isApplicable parseUuid maps userId user policy = true := by
  unfold policyUsers
  cases hpolicy : db.policies.lookup policyId with
  | none => simp
  | some policy =>
    dsimp only
    split
    · next henabled =>
      rw [mem_selectUsers]
      constructor
      · rintro ⟨user, huser, hlive, happlicable⟩
        exact ⟨user, policy, huser, hlive, rfl, henabled, happlicable⟩
      · rintro ⟨user, policy', huser, hlive, hp, -, happlicable⟩
        obtain rfl := Option.some.inj hp
        exact ⟨user, huser, hlive, happlicable⟩
    · next hdisabled =>
      refine ⟨fun h => absurd h List.not_mem_nil, ?_⟩
      rintro ⟨user, policy', -, -, hp, henabled, -⟩
      obtain rfl := Option.some.inj hp
      exact absurd henabled hdisabled

/-- Where the job asks for a team, the policy is returned for the user exactly if its scope covers the team. -/
theorem returned_iff {teamId : Option Uuid} :
    (∃ p ∈ db.getApplicablePolicies parseUuid maps userId teamId, p.id = policyId) ↔
      ∃ user policy, db.users.lookup userId = some user ∧ db.policies.lookup policyId = some policy ∧
        policy.enabled = true ∧ db.isApplicable parseUuid maps userId user policy = true ∧
        Covers policy.scope teamId := by
  constructor
  · rintro ⟨p, hp, rfl⟩
    obtain ⟨user, policy, huser, hlookup, -, henabled, happlicable, hcovers⟩ := mem_getApplicablePolicies.1 hp
    exact ⟨user, policy, huser, hlookup, henabled, happlicable, hcovers⟩
  · rintro ⟨user, policy, huser, hlookup, henabled, happlicable, hcovers⟩
    exact ⟨db.withTargets policyId policy,
      mem_getApplicablePolicies.2 ⟨user, policy, huser, hlookup, rfl, henabled, happlicable, hcovers⟩, rfl⟩

/-- The job selects the users that are not deleted and for whom, with a team of its scope or with none, the policy is
returned. -/
theorem selected_iff_applicable : userId ∈ db.policyUsers parseUuid maps policyId ↔
    (∃ user, db.users.lookup userId = some user ∧ user.deletedAt = none) ∧
      ∃ teamId, ∃ p ∈ db.getApplicablePolicies parseUuid maps userId teamId, p.id = policyId := by
  rw [mem_policyUsers]
  simp only [returned_iff]
  constructor
  · rintro ⟨user, policy, huser, hlive, hpolicy, henabled, happlicable⟩
    exact ⟨⟨user, huser, hlive⟩, policy.scope.teamId, user, policy, huser, hpolicy, henabled, happlicable, fun _ ht => ht⟩
  · rintro ⟨⟨user, huser, hlive⟩, teamId, user', policy, huser', hpolicy, henabled, happlicable, -⟩
    obtain rfl := Option.some.inj (huser.symm.trans huser')
    exact ⟨user, policy, huser, hlive, hpolicy, henabled, happlicable⟩

end Tables

end Policies

end Rustchat
