import Rustchat.Lib.Run
import Rustchat.Policies

/-!
# Applying the policies (`services/membership_policies.rs`, `services/membership_reconciliation.rs`)

A new user becomes a member of all targets of the global policies that apply. The reconciliation goes from one team of a
user to the next and applies the policies in each: it adds channels of these teams and no team at all, and nothing for a
user in no team. `Reconciliation.sameMemberships_iff` says when both come to the same memberships, and
`Reconciliation.applied_iff_inTeams` when the job applies a policy to all whom it concerns.
-/

namespace Rustchat

namespace Reconciliation

open Policies

/-- `team_members` and `channel_members`: the role, by team or channel and user. -/
structure Members where
  teams : Assoc (Uuid × Uuid) String
  channels : Assoc (Uuid × Uuid) String

def roleName : RoleMode → String
  | .member => "member"
  | .admin => "admin"

def Members.Has (m : Members) (userId : Uuid) (targetType : PolicyTargetType) (targetId : Uuid) : Prop :=
  match targetType with
  | .team => (targetId, userId) ∈ m.teams
  | .channel => (targetId, userId) ∈ m.channels

variable (db : Tables) (parseUuid : String → Option Uuid) (maps : CaseMaps)

/-- What the foreign keys of a membership ask for. -/
def CanAdd (userId : Uuid) (targetType : PolicyTargetType) (targetId : Uuid) : Prop :=
  userId ∈ db.users ∧ match targetType with
    | .team => targetId ∈ db.teams
    | .channel => targetId ∈ db.channels

instance (userId : Uuid) (targetType : PolicyTargetType) (targetId : Uuid) :
    Decidable (CanAdd db userId targetType targetId) :=
  match targetType with
  | .team => inferInstanceAs (Decidable (_ ∧ _))
  | .channel => inferInstanceAs (Decidable (_ ∧ _))

/-- `INSERT … ON CONFLICT DO NOTHING`; what fails is noted and left. -/
def addTarget (userId : Uuid) (m : Members) (target : AutoMembershipPolicyTarget) : Members :=
  if CanAdd db userId target.targetType target.targetId then
    match target.targetType with
    | .team => { m with teams := Assoc.insertNew (target.targetId, userId) (roleName target.roleMode) m.teams }
    | .channel => { m with channels := Assoc.insertNew (target.targetId, userId) (roleName target.roleMode) m.channels }
  else m

def applyAutoMembershipForNewUser (userId : Uuid) (m : Members) : Members :=
  let policies := db.getApplicablePolicies parseUuid maps userId none
  let globalPolicies := policies.filter fun p => p.policy.scope = .global
  globalPolicies.foldl (fun m p => p.targets.foldl (addTarget db userId) m) m

def shouldApply (teamId : Uuid) (target : AutoMembershipPolicyTarget) : Bool :=
  match target.targetType with
  | .team => target.targetId = teamId
  | .channel => db.channels.lookup target.targetId = some teamId

def applyAutoMembershipForTeamJoin (userId : Uuid) (m : Members) (teamId : Uuid) : Members :=
  let policies := db.getApplicablePolicies parseUuid maps userId (some teamId)
  policies.foldl (fun m p => (p.targets.filter (shouldApply db teamId)).foldl (addTarget db userId) m) m

/-- `SELECT team_id FROM team_members WHERE user_id = $1` -/
def teamsOf (m : Members) (userId : Uuid) : List Uuid :=
  (m.teams.entries.filter fun e => e.1.2 = userId).map fun e => e.1.1

def inScope (scope : PolicyScope) (teamId : Uuid) : Bool := scope.teamId.all (· = teamId)

def applyPolicy (m : Members) (policyId : Uuid) : Members :=
  match db.policies.lookup policyId with
  | some policy =>
    (db.policyUsers parseUuid maps policyId).foldl
      (fun m userId => ((teamsOf m userId).filter (inScope policy.scope)).foldl
        (applyAutoMembershipForTeamJoin db parseUuid maps userId) m) m
  | none => m

def fullReconciliation (m : Members) : Members :=
  (db.listPolicies none none (some true)).foldl (fun m p => applyPolicy db parseUuid maps m p.id) m

/-- The user is a member of the same teams and channels. -/
def SameMemberships (userId : Uuid) (m m' : Members) : Prop :=
  ∀ targetType targetId, m.Has userId targetType targetId ↔ m'.Has userId targetType targetId

/-- A target of an enabled policy for all teams that applies to the user. -/
def GlobalTarget (userId : Uuid) (target : AutoMembershipPolicyTarget) : Prop :=
  ∃ p ∈ db.getApplicablePolicies parseUuid maps userId none, p.policy.scope = .global ∧ target ∈ p.targets

/-- The user is not deleted, and the channel of the target is in a team of the user. -/
def Reached (m : Members) (userId : Uuid) (target : AutoMembershipPolicyTarget) : Prop :=
  (∃ user, db.users.lookup userId = some user ∧ user.deletedAt = none) ∧ target.targetType = .channel ∧
    ∃ teamId, db.channels.lookup target.targetId = some teamId ∧ (teamId, userId) ∈ m.teams

/-- The targets that can be had are had already or reached, and the policies of single teams add nothing else. -/
structure Covered (m : Members) (userId : Uuid) : Prop where
  reached : ∀ target, GlobalTarget db parseUuid maps userId target →
    CanAdd db userId target.targetType target.targetId →
      m.Has userId target.targetType target.targetId ∨ Reached db m userId target
  single : ∀ teamId, ∀ p ∈ db.getApplicablePolicies parseUuid maps userId (some teamId),
    p.policy.scope = .team teamId → ∀ target ∈ p.targets, db.channels.lookup target.targetId = some teamId →
      Reached db m userId target → m.Has userId .channel target.targetId ∨
        ∃ other, GlobalTarget db parseUuid maps userId other ∧ other.targetType = .channel ∧
          other.targetId = target.targetId

variable {db parseUuid maps} {userId user targetId teamId : Uuid} {targetType : PolicyTargetType} {m m' : Members}
  {target : AutoMembershipPolicyTarget} {targets : List AutoMembershipPolicyTarget}

def Adds (db : Tables) (userId : Uuid) (targetType : PolicyTargetType) (targetId : Uuid)
    (target : AutoMembershipPolicyTarget) : Prop :=
  (target.targetType = targetType ∧ target.targetId = targetId) ∧ CanAdd db userId targetType targetId

theorem has_addTarget : (addTarget db user m target).Has userId targetType targetId ↔
    m.Has userId targetType targetId ∨ user = userId ∧ Adds db userId targetType targetId target := by
  unfold addTarget Adds
  obtain ⟨type, id, mode⟩ := target
  dsimp only
  by_cases hcan : CanAdd db user type id
  · rw [if_pos hcan]
    have hkey : (targetId, userId) = (id, user) ↔ user = userId ∧ id = targetId := by
      rw [Prod.mk.injEq, and_comm, eq_comm, @eq_comm _ targetId]
    cases type with
    | team =>
      cases targetType with
      | team =>
        refine Assoc.mem_insertNew.trans (or_congr_right ?_)
        rw [hkey]
        constructor
        · rintro ⟨rfl, rfl⟩
          exact ⟨rfl, ⟨rfl, rfl⟩, hcan⟩
        · exact fun h => ⟨h.1, h.2.1.2⟩
      | channel => exact ⟨.inl, fun h => h.resolve_right fun h => nomatch h.2.1.1⟩
    | channel =>
      cases targetType with
      | team => exact ⟨.inl, fun h => h.resolve_right fun h => nomatch h.2.1.1⟩
      | channel =>
        refine Assoc.mem_insertNew.trans (or_congr_right ?_)
        rw [hkey]
        constructor
        · rintro ⟨rfl, rfl⟩
          exact ⟨rfl, ⟨rfl, rfl⟩, hcan⟩
        · exact fun h => ⟨h.1, h.2.1.2⟩
  · rw [if_neg hcan]
    refine ⟨.inl, fun h => h.resolve_right ?_⟩
    rintro ⟨rfl, ⟨rfl, rfl⟩, h⟩
    exact hcan h

theorem has_foldl_addTarget : (targets.foldl (addTarget db user) m).Has userId targetType targetId ↔
    m.Has userId targetType targetId ∨
      ∃ target ∈ targets, user = userId ∧ Adds db userId targetType targetId target :=
  (Run.foldl_iff (f := addTarget db user) (I := fun _ => True)
    (Q := fun m : Members => m.Has userId targetType targetId) (fun _ _ _ _ => trivial)
    (fun _ _ _ _ => has_addTarget) trivial).2

theorem has_newUser : (applyAutoMembershipForNewUser db parseUuid maps userId m).Has userId targetType targetId ↔
    m.Has userId targetType targetId ∨
      ∃ target, GlobalTarget db parseUuid maps userId target ∧ Adds db userId targetType targetId target := by
  unfold applyAutoMembershipForNewUser
  refine ((Run.foldl_iff (f := fun m (p : PolicyWithTargets) => p.targets.foldl (addTarget db userId) m)
    (I := fun _ => True) (Q := fun m : Members => m.Has userId targetType targetId)
    (fun _ _ _ _ => trivial) (fun _ _ _ _ => has_foldl_addTarget) trivial).2).trans (or_congr_right ?_)
  constructor
  · rintro ⟨p, hp, target, htarget, -, hadds⟩
    obtain ⟨happlicable, hglobal⟩ := List.mem_filter.1 hp
    exact ⟨target, ⟨p, happlicable, of_decide_eq_true hglobal, htarget⟩, hadds⟩
  · rintro ⟨target, ⟨p, happlicable, hglobal, htarget⟩, hadds⟩
    exact ⟨p, List.mem_filter.2 ⟨happlicable, decide_eq_true hglobal⟩, target, htarget, rfl, hadds⟩

def TeamAdds (db : Tables) (parseUuid : String → Option Uuid) (maps : CaseMaps) (userId teamId : Uuid)
    (targetType : PolicyTargetType) (targetId : Uuid) : Prop :=
  ∃ p ∈ db.getApplicablePolicies parseUuid maps userId (some teamId), ∃ target ∈ p.targets,
    shouldApply db teamId target = true ∧ Adds db userId targetType targetId target

theorem teams_addTarget (hteam : (teamId, user) ∈ m.teams) (h : shouldApply db teamId target = true) :
    (addTarget db user m target).teams = m.teams := by
  unfold addTarget
  unfold shouldApply at h
  split
  · cases htype : target.targetType with
    | team =>
      rw [htype] at h
      obtain rfl := of_decide_eq_true h
      exact Assoc.insertNew_of_mem hteam
    | channel => rfl
  · rfl

theorem teamJoin_spec (hteam : (teamId, user) ∈ m.teams) :
    (applyAutoMembershipForTeamJoin db parseUuid maps user m teamId).teams = m.teams ∧
      ((applyAutoMembershipForTeamJoin db parseUuid maps user m teamId).Has userId targetType targetId ↔
        m.Has userId targetType targetId ∨
          user = userId ∧ TeamAdds db parseUuid maps userId teamId targetType targetId) := by
  have htargets (m' : Members) (hm' : m'.teams = m.teams) (p : PolicyWithTargets) :
      ((p.targets.filter (shouldApply db teamId)).foldl (addTarget db user) m').teams = m.teams ∧
        (((p.targets.filter (shouldApply db teamId)).foldl (addTarget db user) m').Has userId targetType targetId ↔
          m'.Has userId targetType targetId ∨ ∃ target ∈ p.targets.filter (shouldApply db teamId),
            user = userId ∧ Adds db userId targetType targetId target) :=
    Run.foldl_iff (I := fun m' : Members => m'.teams = m.teams)
      (Q := fun m' : Members => m'.Has userId targetType targetId)
      (fun m' hm' target htarget =>
        (teams_addTarget (by rw [hm']; exact hteam) (List.mem_filter.1 htarget).2).trans hm')
      (fun _ _ _ _ => has_addTarget) hm'
  have hpolicies := Run.foldl_iff (I := fun m' : Members => m'.teams = m.teams)
    (Q := fun m' : Members => m'.Has userId targetType targetId)
    (fun m' hm' (p : PolicyWithTargets) (_ : p ∈ db.getApplicablePolicies parseUuid maps user (some teamId)) =>
      (htargets m' hm' p).1) (fun m' hm' p _ => (htargets m' hm' p).2) rfl
  refine ⟨hpolicies.1, hpolicies.2.trans (or_congr_right ?_)⟩
  constructor
  · rintro ⟨p, hp, target, htarget, rfl, hadds⟩
    obtain ⟨htarget, hshould⟩ := List.mem_filter.1 htarget
    exact ⟨rfl, p, hp, target, htarget, hshould, hadds⟩
  · rintro ⟨rfl, p, hp, target, htarget, hshould, hadds⟩
    exact ⟨p, hp, target, List.mem_filter.2 ⟨htarget, hshould⟩, rfl, hadds⟩

/-! ### The whole job -/

theorem mem_teamsOf : teamId ∈ teamsOf m userId ↔ (teamId, userId) ∈ m.teams := by
  unfold teamsOf
  simp only [List.mem_map, List.mem_filter, decide_eq_true_eq]
  constructor
  · rintro ⟨⟨⟨t, u⟩, role⟩, ⟨he, rfl⟩, rfl⟩
    exact AList.lookup_isSome.1 (by rw [Assoc.mem_entries_iff.1 he]; rfl)
  · intro h
    obtain ⟨role, hrole⟩ := Option.isSome_iff_exists.1 (AList.lookup_isSome.2 h)
    exact ⟨⟨(teamId, userId), role⟩, ⟨Assoc.mem_entries_iff.2 hrole, rfl⟩, rfl⟩

theorem inScope_iff {scope : PolicyScope} :
    inScope scope teamId = true ↔ Tables.Covers scope (some teamId) := by
  unfold inScope Tables.Covers
  cases scope.teamId with
  | none => simp
  | some t => simp [eq_comm]

/-- The membership is one that the policies add in a team of the user that the policy has in its scope. -/
def PolicyAdds (db : Tables) (parseUuid : String → Option Uuid) (maps : CaseMaps) (m : Members) (userId : Uuid)
    (targetType : PolicyTargetType) (targetId policyId : Uuid) : Prop :=
  ∃ policy, db.policies.lookup policyId = some policy ∧ userId ∈ db.policyUsers parseUuid maps policyId ∧
    ∃ teamId, (teamId, userId) ∈ m.teams ∧ Tables.Covers policy.scope (some teamId) ∧
      TeamAdds db parseUuid maps userId teamId targetType targetId

/-- What `apply_policy` does for one user: it goes through the teams of the user and adds no other team. -/
theorem userTeams_spec (scope : PolicyScope) (hteams : m'.teams = m.teams) :
    (((teamsOf m' user).filter (inScope scope)).foldl
        (applyAutoMembershipForTeamJoin db parseUuid maps user) m').teams = m.teams ∧
      ((((teamsOf m' user).filter (inScope scope)).foldl
          (applyAutoMembershipForTeamJoin db parseUuid maps user) m').Has userId targetType targetId ↔
        m'.Has userId targetType targetId ∨ ∃ teamId ∈ (teamsOf m' user).filter (inScope scope),
          user = userId ∧ TeamAdds db parseUuid maps userId teamId targetType targetId) := by
  have hone (m'' : Members) (hm'' : m''.teams = m.teams) (teamId : Uuid)
      (hmem : teamId ∈ (teamsOf m' user).filter (inScope scope)) :
      (applyAutoMembershipForTeamJoin db parseUuid maps user m'' teamId).teams = m''.teams ∧
        ((applyAutoMembershipForTeamJoin db parseUuid maps user m'' teamId).Has userId targetType targetId ↔
          m''.Has userId targetType targetId ∨
            user = userId ∧ TeamAdds db parseUuid maps userId teamId targetType targetId) := by
    refine teamJoin_spec ?_
    rw [hm'', ← hteams]
    exact mem_teamsOf.1 (List.mem_filter.1 hmem).1
  exact Run.foldl_iff (I := fun m' : Members => m'.teams = m.teams)
    (Q := fun m' : Members => m'.Has userId targetType targetId)
    (fun m'' hm'' teamId hmem => (hone m'' hm'' teamId hmem).1.trans hm'')
    (fun m'' hm'' teamId hmem => (hone m'' hm'' teamId hmem).2) hteams

theorem teams_userTeams (scope : PolicyScope) (hteams : m'.teams = m.teams) :
    (((teamsOf m' user).filter (inScope scope)).foldl
      (applyAutoMembershipForTeamJoin db parseUuid maps user) m').teams = m.teams :=
  (@userTeams_spec db parseUuid maps user user user .team m m' scope hteams).1

theorem mem_userTeams {scope : PolicyScope} : teamId ∈ (teamsOf m user).filter (inScope scope) ↔
    (teamId, user) ∈ m.teams ∧ Tables.Covers scope (some teamId) := by
  rw [List.mem_filter, mem_teamsOf, inScope_iff]

theorem applyPolicy_spec {policyId : Uuid} (hteams : m'.teams = m.teams) :
    (applyPolicy db parseUuid maps m' policyId).teams = m.teams ∧
      ((applyPolicy db parseUuid maps m' policyId).Has userId targetType targetId ↔
        m'.Has userId targetType targetId ∨
          PolicyAdds db parseUuid maps m userId targetType targetId policyId) := by
  unfold applyPolicy PolicyAdds
  cases hpolicy : db.policies.lookup policyId with
  | none => exact ⟨hteams, by simp⟩
  | some policy =>
    have husers := Run.foldl_iff (I := fun m' : Members => m'.teams = m.teams)
      (Q := fun m' : Members => m'.Has userId targetType targetId)
      (R := fun user => ∃ teamId, ((teamId, user) ∈ m.teams ∧ Tables.Covers policy.scope (some teamId)) ∧
        user = userId ∧ TeamAdds db parseUuid maps userId teamId targetType targetId)
      (fun m' hm' user (_ : user ∈ db.policyUsers parseUuid maps policyId) => teams_userTeams policy.scope hm')
      (fun m' hm' user _ => (userTeams_spec policy.scope hm').2.trans (or_congr_right (exists_congr fun teamId => by
        rw [mem_userTeams, hm']))) hteams
    refine ⟨husers.1, husers.2.trans (or_congr_right ?_)⟩
    constructor
    · rintro ⟨user, huser, teamId, ⟨hmember, hcovers⟩, rfl, hadds⟩
      exact ⟨policy, rfl, huser, teamId, hmember, hcovers, hadds⟩
    · rintro ⟨policy', hp, huser, teamId, hmember, hcovers, hadds⟩
      obtain rfl := Option.some.inj hp
      exact ⟨userId, huser, teamId, ⟨hmember, hcovers⟩, rfl, hadds⟩

/-- The calls of `apply_auto_membership_for_team_join` that `apply_policy` makes: the user and the team. -/
def applications (db : Tables) (parseUuid : String → Option Uuid) (maps : CaseMaps) (m : Members) (policyId : Uuid) :
    List (Uuid × Uuid) :=
  match db.policies.lookup policyId with
  | some policy => (db.policyUsers parseUuid maps policyId).flatMap fun userId =>
      ((teamsOf m userId).filter (inScope policy.scope)).map fun teamId => (userId, teamId)
  | none => []

theorem applyPolicy_eq (m : Members) (policyId : Uuid) : applyPolicy db parseUuid maps m policyId =
    (applications db parseUuid maps m policyId).foldl
      (fun m c => applyAutoMembershipForTeamJoin db parseUuid maps c.1 m c.2) m := by
  unfold applyPolicy applications
  cases db.policies.lookup policyId with
  | none => rfl
  | some policy =>
    have husers (users : List Uuid) (m' : Members) (hm' : m'.teams = m.teams) :
        users.foldl (fun m userId => ((teamsOf m userId).filter (inScope policy.scope)).foldl
            (applyAutoMembershipForTeamJoin db parseUuid maps userId) m) m' =
          users.foldl (fun m' userId => ((teamsOf m userId).filter (inScope policy.scope)).foldl
            (applyAutoMembershipForTeamJoin db parseUuid maps userId) m') m' := by
      induction users generalizing m' with
      | nil => rfl
      | cons user users ih =>
        have hsame : teamsOf m' user = teamsOf m user := by unfold teamsOf; rw [hm']
        rw [List.foldl_cons, List.foldl_cons, ← hsame]
        exact ih _ (teams_userTeams policy.scope hm')
    rw [List.foldl_flatMap]
    simp only [List.foldl_map]
    exact husers _ m rfl

theorem mem_applications {policyId : Uuid} : (userId, teamId) ∈ applications db parseUuid maps m policyId ↔
    ∃ policy, db.policies.lookup policyId = some policy ∧ userId ∈ db.policyUsers parseUuid maps policyId ∧
      (teamId, userId) ∈ m.teams ∧ Tables.Covers policy.scope (some teamId) := by
  unfold applications
  cases db.policies.lookup policyId with
  | none => simp
  | some policy => simp [mem_teamsOf, inScope_iff]

/-- Whether the job applies the policy to the user in some team. -/
def AppliedTo (db : Tables) (parseUuid : String → Option Uuid) (maps : CaseMaps) (m : Members) (policyId userId : Uuid) : Prop :=
  ∃ teamId, (userId, teamId) ∈ applications db parseUuid maps m policyId

/-- The job applies a policy to the undeleted users for whom it is returned exactly if each undeleted user that its
source names is in a team, and in the team of the policy if it has one. -/
theorem applied_iff_inTeams (db : Tables) (parseUuid : String → Option Uuid) (maps : CaseMaps) (m : Members)
    (policyId : Uuid) :
    (∀ userId, AppliedTo db parseUuid maps m policyId userId ↔
      (∃ user, db.users.lookup userId = some user ∧ user.deletedAt = none) ∧
        ∃ teamId, ∃ p ∈ db.getApplicablePolicies parseUuid maps userId teamId, p.id = policyId) ↔
    ∀ policy, db.policies.lookup policyId = some policy → policy.enabled = true →
      ∀ userId user, db.users.lookup userId = some user → user.deletedAt = none →
        db.Names parseUuid maps policy userId user →
          ∃ teamId, (teamId, userId) ∈ m.teams ∧ Tables.Covers policy.scope (some teamId) := by
  constructor
  · intro h policy hpolicy henabled userId user huser hlive hnames
    have happlicable := Tables.isApplicable_iff.2 hnames
    obtain ⟨teamId, hcall⟩ := (h userId).2 ⟨⟨user, huser, hlive⟩, policy.scope.teamId, Tables.returned_iff.2
      ⟨user, policy, huser, hpolicy, henabled, happlicable, fun _ ht => ht⟩⟩
    obtain ⟨policy', hp, -, hmember, hcovers⟩ := mem_applications.1 hcall
    obtain rfl := Option.some.inj (hpolicy.symm.trans hp)
    exact ⟨teamId, hmember, hcovers⟩
  · intro h userId
    rw [← Tables.selected_iff_applicable]
    constructor
    · rintro ⟨teamId, hcall⟩
      obtain ⟨-, -, huser, -⟩ := mem_applications.1 hcall
      exact huser
    · intro hselected
      obtain ⟨user, policy, huser, hlive, hpolicy, henabled, happlicable⟩ := Tables.mem_policyUsers.1 hselected
      obtain ⟨teamId, hmember, hcovers⟩ :=
        h policy hpolicy henabled userId user huser hlive (Tables.isApplicable_iff.1 happlicable)
      exact ⟨teamId, mem_applications.2 ⟨policy, hpolicy, hselected, hmember, hcovers⟩⟩

theorem has_fullReconciliation : (fullReconciliation db parseUuid maps m).Has userId targetType targetId ↔
    m.Has userId targetType targetId ∨ (∃ user, db.users.lookup userId = some user ∧ user.deletedAt = none) ∧
      ∃ teamId, (teamId, userId) ∈ m.teams ∧
        TeamAdds db parseUuid maps userId teamId targetType targetId := by
  unfold fullReconciliation
  refine ((Run.foldl_iff (I := fun m' : Members => m'.teams = m.teams)
    (Q := fun m' : Members => m'.Has userId targetType targetId)
    (R := fun p => PolicyAdds db parseUuid maps m userId targetType targetId p.id)
    (fun m' hm' (p : PolicyWithTargets) (_ : p ∈ db.listPolicies none none (some true)) => ?_)
    (fun m' hm' p _ => (applyPolicy_spec hm').2) rfl).2).trans (or_congr_right ?_)
  · have hspec : (applyPolicy db parseUuid maps m' p.id).teams = m.teams ∧
        ((applyPolicy db parseUuid maps m' p.id).Has userId targetType targetId ↔ _) := applyPolicy_spec hm'
    exact hspec.1
  constructor
  · rintro ⟨p, -, policy, -, huser, teamId, hmember, -, hadds⟩
    obtain ⟨user, -, hlookup, hlive, -⟩ := Tables.mem_policyUsers.1 huser
    exact ⟨⟨user, hlookup, hlive⟩, teamId, hmember, hadds⟩
  · rintro ⟨⟨user, hlookup, hlive⟩, teamId, hmember, p, hp, hadds⟩
    obtain ⟨user', policy, hlookup', hpolicy, hrow, henabled, happlicable, hcovers⟩ :=
      Tables.mem_getApplicablePolicies.1 hp
    obtain rfl := Option.some.inj (hlookup.symm.trans hlookup')
    refine ⟨p, ?_, policy, hpolicy, ?_, teamId, hmember, hcovers, p, hp, hadds⟩
    · exact Tables.mem_listPolicies.2 ⟨policy, hpolicy, hrow, nofun, nofun, fun b hb => by
        obtain rfl := Option.some.inj hb
        exact henabled.symm⟩
    · exact Tables.mem_policyUsers.2 ⟨user, policy, hlookup, hlive, hpolicy, henabled, happlicable⟩

/-! ### Both ways -/

theorem has_or_channel (hteam : (teamId, userId) ∈ m.teams) (h : shouldApply db teamId target = true) :
    m.Has userId target.targetType target.targetId ∨
      target.targetType = .channel ∧ db.channels.lookup target.targetId = some teamId := by
  unfold shouldApply at h
  cases htype : target.targetType with
  | team =>
    rw [htype] at h
    obtain rfl := of_decide_eq_true h
    exact .inl hteam
  | channel =>
    rw [htype] at h
    exact .inr ⟨rfl, of_decide_eq_true h⟩

theorem globalTarget_of_mem {p : PolicyWithTargets}
    (hp : p ∈ db.getApplicablePolicies parseUuid maps userId (some teamId))
    (hscope : p.policy.scope = .global)
    (htarget : target ∈ p.targets) : GlobalTarget db parseUuid maps userId target := by
  obtain ⟨user, policy, huser, hpolicy, hrow, henabled, happlicable, -⟩ :=
    Tables.mem_getApplicablePolicies.1 hp
  refine ⟨p, Tables.mem_getApplicablePolicies.2 ⟨user, policy, huser, hpolicy, hrow, henabled, happlicable, ?_⟩,
    hscope, htarget⟩
  intro t ht
  rw [hrow] at hscope
  have hglobal : policy.scope = .global := hscope
  rw [hglobal] at ht
  cases ht

theorem teamAdds_of_reached (h : GlobalTarget db parseUuid maps userId target) (hadds : Adds db userId targetType targetId target)
    (hreached : Reached db m userId target) :
    ∃ teamId, (teamId, userId) ∈ m.teams ∧ TeamAdds db parseUuid maps userId teamId targetType targetId := by
  obtain ⟨-, htype, teamId, hchannel, hmember⟩ := hreached
  obtain ⟨p, hp, hscope, htarget⟩ := h
  obtain ⟨user, policy, huser, hpolicy, hrow, henabled, happlicable, hcovers⟩ :=
    Tables.mem_getApplicablePolicies.1 hp
  refine ⟨teamId, hmember, p, Tables.mem_getApplicablePolicies.2
    ⟨user, policy, huser, hpolicy, hrow, henabled, happlicable, fun t ht => ?_⟩, target, htarget, ?_, hadds⟩
  · cases hcovers t ht
  · unfold shouldApply
    rw [htype]
    exact decide_eq_true hchannel

/-- The reconciliation leaves a user with the memberships of a new user exactly if the targets of the global policies
are had already or are channels in teams of the user, and the policies of these teams have no other targets. -/
theorem sameMemberships_iff (db : Tables) (parseUuid : String → Option Uuid) (maps : CaseMaps) (m : Members)
    (userId : Uuid) :
    SameMemberships userId (fullReconciliation db parseUuid maps m)
        (applyAutoMembershipForNewUser db parseUuid maps userId m) ↔ Covered db parseUuid maps m userId := by
  unfold SameMemberships
  simp only [has_fullReconciliation, has_newUser]
  constructor
  · intro h
    refine ⟨fun target hglobal hcan => ?_, fun teamId p hp hscope target htarget hchannel hreached => ?_⟩
    · have hadded := (h target.targetType target.targetId).2 (.inr ⟨target, hglobal, ⟨rfl, rfl⟩, hcan⟩)
      rcases hadded with hhas | ⟨hlive, teamId, hmember, p, hp, other, hother, hshould, ⟨htype, hid⟩, -⟩
      · exact .inl hhas
      · rcases has_or_channel hmember hshould with hhas | ⟨hchannel, hlookup⟩
        · rw [htype, hid] at hhas
          exact .inl hhas
        · rw [hid] at hlookup
          exact .inr ⟨hlive, htype.symm.trans hchannel, teamId, hlookup, hmember⟩
    · obtain ⟨hlive, htype, t, ht, hmember⟩ := hreached
      obtain rfl := Option.some.inj (hchannel.symm.trans ht)
      have hcan : CanAdd db userId .channel target.targetId := by
        obtain ⟨user, huser, -⟩ := hlive
        exact ⟨AList.lookup_isSome.1 (by rw [huser]; rfl), AList.lookup_isSome.1 (by rw [hchannel]; rfl)⟩
      have hshould : shouldApply db teamId target = true := by
        unfold shouldApply
        rw [htype]
        exact decide_eq_true hchannel
      rcases (h .channel target.targetId).1 (.inr ⟨hlive, teamId, hmember, p, hp, target, htarget, hshould,
        ⟨htype, rfl⟩, hcan⟩) with hhas | ⟨other, hglobal, ⟨hother, hid⟩, -⟩
      · exact .inl hhas
      · exact .inr ⟨other, hglobal, hother, hid⟩
  · rintro ⟨hreached, hsingle⟩ targetType targetId
    constructor
    · rintro (hhas | ⟨hlive, teamId, hmember, p, hp, target, htarget, hshould, ⟨rfl, rfl⟩, hcan⟩)
      · exact .inl hhas
      · rcases has_or_channel hmember hshould with hhas | ⟨htype, hlookup⟩
        · exact .inl hhas
        · cases hscope : p.policy.scope with
          | global => exact .inr ⟨target, globalTarget_of_mem hp hscope htarget, ⟨rfl, rfl⟩, hcan⟩
          | team t =>
            obtain ⟨-, policy, -, -, hrow, -, -, hcovers⟩ := Tables.mem_getApplicablePolicies.1 hp
            have ht : policy.scope = .team t := by rw [← hscope, hrow]; rfl
            obtain rfl := Option.some.inj (hcovers t (by rw [ht]; rfl))
            rcases hsingle teamId p hp hscope target htarget hlookup ⟨hlive, htype, teamId, hlookup,
              hmember⟩ with
              hhas | ⟨other, hother, hotherType, hid⟩
            · rw [htype]
              exact .inl hhas
            · exact .inr ⟨other, hother, ⟨hotherType.trans htype.symm, hid⟩, hcan⟩
    · rintro (hhas | ⟨target, htarget, hadds⟩)
      · exact .inl hhas
      · obtain ⟨⟨rfl, rfl⟩, hcan⟩ := hadds
        rcases hreached target htarget hcan with hhas | hr
        · exact .inl hhas
        · exact .inr ⟨hr.1, teamAdds_of_reached htarget ⟨⟨rfl, rfl⟩, hcan⟩ hr⟩

/-- One policy for all users, with one target: the channel `5` of the team `1`, or the team itself. -/
def onePolicy (target : AutoMembershipPolicyTarget) : Tables where
  users := AList.insert 2 ⟨none, "member", none, none⟩ ∅
  groups := ∅
  groupMembers := []
  teams := [1]
  channels := AList.insert 5 1 ∅
  policies := AList.insert 7 ⟨.global, .allUsers, .obj [], true, 0, 0⟩ ∅
  targets := [(7, target)]

def asciiMaps : CaseMaps := ⟨String.toLower, String.toLower, Char.isAlphanum⟩

theorem onePolicy_applicable {target : AutoMembershipPolicyTarget} {p : PolicyWithTargets} {teamId : Option Uuid}
    (h : p ∈ (onePolicy target).getApplicablePolicies (fun _ => none) asciiMaps userId teamId) :
    p = (onePolicy target).withTargets 7 ⟨.global, .allUsers, .obj [], true, 0, 0⟩ := by
  obtain ⟨user, policy, -, hpolicy, hrow, -⟩ := Tables.mem_getApplicablePolicies.1 h
  rcases Assoc.lookup_insert_cases hpolicy with ⟨hid, rfl⟩ | ⟨-, h⟩
  · rw [hrow, hid]
  · cases h

theorem channel_target_same : SameMemberships 2
    (fullReconciliation (onePolicy ⟨.channel, 5, .member⟩) (fun _ => none) asciiMaps ⟨AList.insert (1, 2) "member" ∅, ∅⟩)
    (applyAutoMembershipForNewUser (onePolicy ⟨.channel, 5, .member⟩) (fun _ => none) asciiMaps 2
      ⟨AList.insert (1, 2) "member" ∅, ∅⟩) := by
  refine (sameMemberships_iff _ _ _ _ _).2 ⟨fun target hglobal _ => .inr ?_, fun teamId p hp hscope => ?_⟩
  · obtain ⟨p, hp, -, htarget⟩ := hglobal
    rw [onePolicy_applicable hp] at htarget
    obtain rfl := List.mem_singleton.1 htarget
    exact ⟨⟨_, rfl, rfl⟩, rfl, 1, rfl, by decide⟩
  · rw [onePolicy_applicable hp] at hscope
    cases hscope

/-- The team of a policy is for new users only. -/
theorem team_target_missed : ¬ SameMemberships 2
    (fullReconciliation (onePolicy ⟨.team, 1, .member⟩) (fun _ => none) asciiMaps ⟨∅, ∅⟩)
    (applyAutoMembershipForNewUser (onePolicy ⟨.team, 1, .member⟩) (fun _ => none) asciiMaps 2 ⟨∅, ∅⟩) := by
  intro h
  have hglobal : GlobalTarget (onePolicy ⟨.team, 1, .member⟩) (fun _ => none) asciiMaps 2 ⟨.team, 1,
    .member⟩ := by
    refine ⟨(onePolicy ⟨.team, 1, .member⟩).withTargets 7 ⟨.global, .allUsers, .obj [], true, 0, 0⟩, ?_, rfl,
      List.mem_singleton_self _⟩
    exact Tables.mem_getApplicablePolicies.2 ⟨_, _, rfl, rfl, rfl, rfl, rfl, fun _ ht => nomatch ht⟩
  have hnew := (h .team 1).2 (has_newUser.2 (.inr ⟨_, hglobal, ⟨rfl, rfl⟩, by decide⟩))
  rcases has_fullReconciliation.1 hnew with hhas | ⟨-, teamId, hmember, -⟩
  · exact absurd hhas (AList.notMem_empty _)
  · exact absurd hmember (AList.notMem_empty _)

/-- The policy for all users is returned for the user `2`, who is in no team and to whom the job applies nothing. -/
theorem teamless_not_applied : ¬ ∀ (db : Tables) (parseUuid : String → Option Uuid) (maps : CaseMaps) (m : Members)
    (policyId userId : Uuid), AppliedTo db parseUuid maps m policyId userId ↔
      (∃ user, db.users.lookup userId = some user ∧ user.deletedAt = none) ∧
        ∃ teamId, ∃ p ∈ db.getApplicablePolicies parseUuid maps userId teamId, p.id = policyId := by
  intro h
  have hreturned : ∃ p ∈ (onePolicy ⟨.team, 1, .member⟩).getApplicablePolicies (fun _ => none) asciiMaps 2 none, p.id = 7 :=
    Tables.returned_iff.2 ⟨_, _, rfl, rfl, rfl, rfl, nofun⟩
  obtain ⟨teamId, hcall⟩ := (h (onePolicy ⟨.team, 1, .member⟩) (fun _ => none) asciiMaps ⟨∅, ∅⟩ 7 2).2
    ⟨⟨_, rfl, rfl⟩, none, hreturned⟩
  obtain ⟨-, -, -, hmember, -⟩ := mem_applications.1 hcall
  exact absurd hmember (AList.notMem_empty _)

end Reconciliation

end Rustchat
