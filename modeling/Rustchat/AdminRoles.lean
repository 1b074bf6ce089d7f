import Rustchat.EmailAccounts

/-!
# Roles and permissions (`auth/policy.rs`)

A role string names one role or several, and a permission is granted if one of them has it. `require_admin!` compares
the whole string with two names, of which `admin` is an alias of a role without `ADMIN_FULL`:
`Policy.admin_agree_iff` says for which strings the two ask for the same.
-/

namespace Rustchat

namespace Policy

inductive Resource
  | user
  | team
  | channel
  | post
  | file
  | system
  | admin
deriving DecidableEq

inductive Action
  | create
  | read
  | update
  | delete
  | list
  | manage
deriving DecidableEq

structure Permission where
  resource : Resource
  action : Action
deriving DecidableEq

def adminFull : Permission := ⟨.admin, .manage⟩

structure Role where
  name : String
  permissions : List Permission

namespace Role

def systemAdmin : Role where
  name := "system_admin"
  permissions := [adminFull, ⟨.user, .manage⟩, ⟨.team, .manage⟩, ⟨.channel, .manage⟩, ⟨.system, .manage⟩,
    ⟨.post, .delete⟩]

def teamAdmin : Role where
  name := "team_admin"
  permissions := [⟨.team, .create⟩, ⟨.team, .manage⟩, ⟨.channel, .manage⟩, ⟨.user, .read⟩, ⟨.post, .delete⟩]

def orgAdmin : Role where
  name := "org_admin"
  permissions := [⟨.team, .create⟩, ⟨.team, .manage⟩, ⟨.channel, .manage⟩, ⟨.user, .manage⟩, ⟨.post, .delete⟩]

def member : Role where
  name := "member"
  permissions := [⟨.user, .read⟩, ⟨.user, .update⟩, ⟨.team, .read⟩, ⟨.channel, .read⟩, ⟨.channel, .create⟩,
    ⟨.post, .create⟩, ⟨.post, .read⟩, ⟨.post, .update⟩, ⟨.file, .create⟩, ⟨.file, .read⟩, ⟨.system, .read⟩]

def guest : Role where
  name := "guest"
  permissions := [⟨.user, .read⟩, ⟨.team, .read⟩, ⟨.channel, .read⟩, ⟨.post, .read⟩, ⟨.file, .read⟩]

def hasPermission (role : Role) (permission : Permission) : Bool := decide (permission ∈ role.permissions)

def fromName (name : String) : Option Role :=
  match name with
  | "system_admin" => some systemAdmin
  | "team_admin" => some teamAdmin
  | "org_admin" => some orgAdmin
  | "admin" => some orgAdmin
  | "member" => some member
  | "guest" => some guest
  | _ => none

end Role

inductive AuthzResult
  | allow
  | deny (reason : String)
deriving DecidableEq

def parseRoles (role : String) : List String :=
  ((role.toList.splitOnP fun c => isWhitespace c || c == ',').map fun name => trimText (String.ofList name)).filter
    fun name => name ≠ ""

/-- The loop over the names, with `has_known_role`. -/
def checkRoles (permission : Permission) : Bool → List String → AuthzResult
  | hasKnownRole, [] => if hasKnownRole then .deny "Permission denied" else .deny "Unknown role"
  | hasKnownRole, name :: names =>
    match Role.fromName name with
    | none => checkRoles permission hasKnownRole names
    | some role =>
      if role.hasPermission adminFull then .allow
      else if role.hasPermission permission then .allow
      else checkRoles permission true names

def checkPermission (role : String) (permission : Permission) : AuthzResult :=
  checkRoles permission false (parseRoles role)

/-- `require_admin!` -/
def requireAdmin (role : String) : Except AppError Unit :=
  match role with
  | "system_admin" | "admin" => .ok ()
  | _ => .error (.forbidden "Admin access required")

/-! ### What a role string grants -/

/-- A name stands for a role with the permission, or with all of them. -/
def Grants (permission : Permission) (name : String) : Prop :=
  ∃ role, Role.fromName name = some role ∧ (adminFull ∈ role.permissions ∨ permission ∈ role.permissions)

theorem checkRoles_eq_allow {permission : Permission} {hasKnownRole : Bool} {names : List String} :
    checkRoles permission hasKnownRole names = .allow ↔ ∃ name ∈ names, Grants permission name := by
  induction names generalizing hasKnownRole with
  | nil => cases hasKnownRole <;> simp [checkRoles]
  | cons name names ih =>
    rw [checkRoles, List.exists_mem_cons_iff]
    cases h : Role.fromName name with
    | none =>
      have hname : ¬ Grants permission name := by
        rintro ⟨role, hrole, -⟩
        rw [h] at hrole
        cases hrole
      simp only [ih, hname, false_or]
    | some role =>
      have hname : Grants permission name ↔ adminFull ∈ role.permissions ∨ permission ∈ role.permissions := by
        simp [Grants, h]
      rw [hname]
      by_cases hfull : adminFull ∈ role.permissions
      · simp [Role.hasPermission, hfull]
      · by_cases hperm : permission ∈ role.permissions
        · simp [Role.hasPermission, hperm]
        · simp [Role.hasPermission, hfull, hperm, ih]

theorem checkPermission_eq_allow {role : String} {permission : Permission} :
    checkPermission role permission = .allow ↔ ∃ name ∈ parseRoles role, Grants permission name :=
  checkRoles_eq_allow

theorem checkPermission_of_adminFull {role : String} (h : checkPermission role adminFull = .allow)
    (permission : Permission) : checkPermission role permission = .allow := by
  obtain ⟨name, hname, found, hfound, hfull⟩ := checkPermission_eq_allow.1 h
  exact checkPermission_eq_allow.2 ⟨name, hname, found, hfound, .inl (hfull.elim id id)⟩

theorem grants_adminFull_iff {name : String} : Grants adminFull name ↔ name = "system_admin" := by
  unfold Grants
  constructor
  · rintro ⟨role, hrole, hfull⟩
    replace hfull : adminFull ∈ role.permissions := hfull.elim id id
    unfold Role.fromName at hrole
    split at hrole
    · rfl
    all_goals
      cases hrole
      try exact absurd hfull (by decide)
  · rintro rfl
    exact ⟨_, rfl, .inl (by decide)⟩

/-! ### The two checks -/

theorem requireAdmin_eq_ok {role : String} : requireAdmin role = .ok () ↔ role = "system_admin" ∨ role = "admin" := by
  unfold requireAdmin
  split
  · simp
  · simp
  · next hsystem hadmin => exact iff_of_false nofun (not_or.2 ⟨hsystem, hadmin⟩)

/-- The checks agree except on the alias, and on `system_admin` among other names. -/
theorem admin_agree_iff (role : String) :
    (requireAdmin role = .ok () ↔ checkPermission role adminFull = .allow) ↔
      role ≠ "admin" ∧ (role = "system_admin" ∨ "system_admin" ∉ parseRoles role) := by
  have hcheck : checkPermission role adminFull = .allow ↔ "system_admin" ∈ parseRoles role := by
    simp only [checkPermission_eq_allow, grants_adminFull_iff, exists_eq_right]
  rw [requireAdmin_eq_ok, hcheck]
  by_cases hsystem : role = "system_admin"
  · subst hsystem
    exact iff_of_true (iff_of_true (.inl rfl) (by decide +kernel)) ⟨by decide, .inl rfl⟩
  by_cases hadmin : role = "admin"
  · subst hadmin
    exact iff_of_false (fun h => absurd (h.1 (.inr rfl)) (by decide +kernel)) fun h => h.1 rfl
  simp [hsystem, hadmin]

/-- The alias passes `require_admin!` and grants nothing of the kind. -/
theorem admin_disagrees :
    ¬ ∀ role, requireAdmin role = .ok () ↔ checkPermission role adminFull = .allow := fun h =>
  absurd ((h "admin").1 rfl) (by decide +kernel)

end Policy

end Rustchat
