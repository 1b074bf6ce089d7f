import Rustchat.Lib.Run
import Rustchat.Posts

/-!
# Accounts and their emails (`api/auth.rs`, `api/oauth.rs`, `services/password_reset.rs`)

Registration and password login compare the email as it is written, an SSO login compares `LOWER` of it, and a
password reset looks for the trimmed email in lower case. The four agree on the active accounts exactly as
long as these have emails with no other spelling (`Accounts.law_iff`).
-/

namespace Rustchat

structure User where
  orgId : Option Uuid
  username : String
  email : String
  passwordHash : Option String
  displayName : Option String
  isActive : Bool
  role : String
  emailVerified : Bool
  authProvider : Option String
  authProviderId : Option String
  lastLoginAt : Option Int
  deletedAt : Option Int

/-- `lower` is `LOWER` of the database, `toLowercase` and `isAlphanumeric` are those of Rust. -/
structure CaseMaps where
  lower : String → String
  toLowercase : String → String
  isAlphanumeric : Char → Bool

/-- `str::trim` -/
def trimText (text : String) : String :=
  String.ofList ((text.toList.dropWhile isWhitespace).reverse.dropWhile isWhitespace).reverse

/-- A text for a column `VARCHAR(n)`. -/
def fitsColumn (n : ℕ) (text : String) : Bool :=
  decide (text.length ≤ n) && !text.toList.contains (Char.ofNat 0)

def User.fits (user : User) : Bool :=
  fitsColumn 64 user.username && fitsColumn 255 user.email && user.passwordHash.all (fitsColumn 255) &&
    user.displayName.all (fitsColumn 255) && fitsColumn 32 user.role && user.authProvider.all (fitsColumn 64) &&
    user.authProviderId.all (fitsColumn 255)

/-- `NOT NULL` values that `UNIQUE (email)` and `UNIQUE (org_id, username)` keep apart. -/
def User.distinct (user other : User) : Bool :=
  decide (user.email ≠ other.email) && !(user.orgId.isSome && decide (user.orgId = other.orgId ∧ user.username = other.username))

structure Accounts where
  users : Assoc Uuid User

namespace Accounts

/-- `fetch_optional` of the rows that meet `p`. -/
def fetchOptional (db : Accounts) (p : User → Bool) : Option (Uuid × User) :=
  (db.users.entries.find? fun e => p e.2).map fun e => (e.1, e.2)

def insertable (db : Accounts) (id : Uuid) (user : User) : Bool :=
  decide (id ∉ db.users) && user.fits && db.users.entries.all fun e => user.distinct e.2

variable (maps : CaseMaps)

def registered (db : Accounts) (email : String) : Option (Uuid × User) :=
  db.fetchOptional fun u => u.email = email ∧ u.deletedAt = none

def loginUser (db : Accounts) (email : String) : Option (Uuid × User) :=
  db.fetchOptional fun u => u.email = email ∧ u.isActive = true ∧ u.deletedAt = none

def emailMatch (db : Accounts) (email : String) : Option (Uuid × User) :=
  db.fetchOptional fun u => maps.lower u.email = maps.lower email ∧ u.deletedAt = none

def resetUser (db : Accounts) (email : String) : Option (Uuid × User) :=
  let email := maps.toLowercase (trimText email)
  db.fetchOptional fun u => u.email = email ∧ u.isActive = true ∧ u.deletedAt = none

end Accounts

structure CreateUser where
  username : String
  email : String
  password : Option String
  displayName : Option String
  orgId : Option Uuid
  turnstileToken : Option String
  honeypot : Option String

/-- `hashPassword` checks the password rules before it hashes. -/
structure RegisterSettings where
  allowRegistration : Bool
  turnstileEnabled : Bool
  verifyToken : String → Bool
  hashPassword : String → Except AppError String

def CreateUser.passwordRef (input : CreateUser) : Option String := input.password.filter (· ≠ "")

def CreateUser.row (input : CreateUser) (passwordHash : Option String) : User where
  orgId := input.orgId
  username := input.username
  email := input.email
  passwordHash := passwordHash
  displayName := input.displayName
  isActive := input.passwordRef.isSome
  role := "member"
  emailVerified := false
  authProvider := none
  authProviderId := none
  lastLoginAt := none
  deletedAt := none

def RegisterSettings.checkToken (settings : RegisterSettings) (turnstileToken : Option String) :
    Except AppError Unit :=
  if settings.turnstileEnabled then
    (okOr turnstileToken (.validation "Verification required")).bind fun token =>
      ensure (settings.verifyToken token = true) (.validation "Verification failed. Please try again.")
  else .ok ()

def RegisterSettings.hashed (settings : RegisterSettings) : Option String → Except AppError (Option String)
  | some password => (settings.hashPassword password).map some
  | none => .ok none

namespace Accounts

def register (db : Accounts) (settings : RegisterSettings) (input : CreateUser) (id : Uuid) :
    Except AppError (Uuid × User) :=
  (ensure (settings.allowRegistration = true) (.forbidden "Public registration is disabled")).bind fun _ =>
  (ensure (input.honeypot.all (· = "") = true) (.validation "Invalid request")).bind fun _ =>
  (settings.checkToken input.turnstileToken).bind fun _ =>
  (ensure (3 ≤ input.username.utf8ByteSize) (.validation "Username must be at least 3 characters")).bind fun _ =>
  (ensure ('@' ∈ input.email.toList) (.validation "Invalid email format")).bind fun _ =>
  (ensure ((db.registered input.email).isNone = true) (.conflict "Email already registered")).bind fun _ =>
  (ensure ((db.fetchOptional fun u => u.username = input.username ∧ u.deletedAt = none).isNone = true)
    (.conflict "Username already taken")).bind fun _ =>
  (settings.hashed input.passwordRef).bind fun passwordHash =>
  (ensure (db.insertable id (input.row passwordHash) = true) .database).bind fun _ =>
    .ok (id, input.row passwordHash)

/-- The checks of `register`. -/
def MayRegister (db : Accounts) (settings : RegisterSettings) (input : CreateUser) (id : Uuid) : Prop :=
  settings.allowRegistration = true ∧ input.honeypot.all (· = "") = true ∧
    settings.checkToken input.turnstileToken = .ok () ∧ 3 ≤ input.username.utf8ByteSize ∧
      '@' ∈ input.email.toList ∧
    (db.registered input.email).isNone = true ∧
    (db.fetchOptional fun u => u.username = input.username ∧ u.deletedAt = none).isNone = true ∧
    ∃ passwordHash, settings.hashed input.passwordRef = .ok passwordHash ∧
      db.insertable id (input.row passwordHash) = true

end Accounts

structure UserInfo where
  name : Option String
  preferredUsername : Option String
  groups : List String
  externalId : Option String

structure SsoConfig where
  orgId : Uuid
  providerType : String
  autoProvision : Bool
  defaultRole : Option String
  roleMappings : Option Json

/-- What a request takes from outside: the id of a new row, `NOW()`, the suffix of a username that no
number makes unique, and the text of an error of the insertion. -/
structure SsoDrawn where
  id : Uuid
  now : Int
  uniqueSuffix : String
  error : String

/-- An SSO login with the email, the user info and the configuration of the provider `providerKey`. -/
structure SsoLogin where
  email : String
  userInfo : UserInfo
  config : SsoConfig
  providerKey : String
  drawn : SsoDrawn

def determineUserRole (config : SsoConfig) (userInfo : UserInfo) : String :=
  let assignedRole := config.defaultRole.getD "member"
  let mapped := config.roleMappings.bind fun mappings =>
    userInfo.groups.findSome? fun group => (mappings.get? group).bind Json.asStr
  mapped.getD assignedRole

def generateUniqueUsername (taken : String → Bool) (base uniqueSuffix : String) : String :=
  (((List.range 1000).map fun i => if i = 0 then base else base ++ toString i).find? fun c => !taken c).getD
    (base ++ "_" ++ uniqueSuffix)

namespace SsoLogin

variable (maps : CaseMaps) (login : SsoLogin)

def externalId : Option String := (login.userInfo.externalId.map trimText).filter (· ≠ "")

def desiredRole : String := determineUserRole login.config login.userInfo

/-- Keep the letters, digits, `_` and `-`. -/
def cleaned (text : List Char) : String :=
  String.ofList (text.filter fun c => maps.isAlphanumeric c || c = '_' || c = '-')

def baseUsername : String :=
  let fromName (name : String) : String :=
    cleaned maps ((maps.toLowercase name).toList.map fun c => if c = ' ' then '_' else c)
  let fromEmail : String :=
    cleaned maps (maps.toLowercase (String.ofList (login.email.toList.takeWhile (· ≠ '@')))).toList
  (login.userInfo.preferredUsername.orElse fun _ => login.userInfo.name.map fromName).getD fromEmail

/-- `UPDATE users` of an SSO login. -/
def refresh (user : User) : User :=
  { user with
    lastLoginAt := some login.drawn.now
    role := if login.config.providerType = "oidc" ∧
      login.desiredRole ≠ "" then login.desiredRole else user.role }

def link (user : User) : User :=
  if login.externalId.isSome ∧ user.authProviderId = none then
    { user with authProvider := some login.providerKey, authProviderId := login.externalId }
  else user

def linkedElsewhere (user : User) : Bool :=
  user.authProviderId.isSome && !(decide (user.authProvider = some login.providerKey ∧ login.externalId = user.authProviderId))

def row (db : Accounts) : User where
  orgId := some login.config.orgId
  username := generateUniqueUsername (fun c => (db.fetchOptional fun u => u.username = c).isSome)
    (login.baseUsername maps) login.drawn.uniqueSuffix
  email := login.email
  passwordHash := none
  displayName := login.userInfo.name
  isActive := true
  role := if login.desiredRole = "" then login.config.defaultRole.getD "member" else login.desiredRole
  emailVerified := false
  authProvider := some login.providerKey
  authProviderId := login.externalId
  lastLoginAt := none
  deletedAt := none

end SsoLogin

namespace Accounts

variable (maps : CaseMaps)

def externalMatch (db : Accounts) (login : SsoLogin) : Option (Uuid × User) :=
  login.externalId.bind fun extId => db.fetchOptional fun u =>
    u.authProvider = some login.providerKey ∧ u.authProviderId = some extId ∧ u.deletedAt = none

def update (id : Uuid) (user : User) : Except AppError (Uuid × User) :=
  (ensure (user.fits = true) .database).map fun _ => (id, user)

def findOrCreateUser (db : Accounts) (login : SsoLogin) : Except AppError (Uuid × User) :=
  match db.externalMatch login with
  | some (id, user) => update id (login.refresh user)
  | none => match db.emailMatch maps login.email with
    | some (id, user) =>
      (ensure (login.linkedElsewhere user = false)
        (.conflict "Account is already linked to a different SSO identity")).bind fun _ =>
        update id (login.refresh (login.link user))
    | none =>
      (ensure (login.config.autoProvision = true)
        (.forbidden "Account does not exist and auto-provisioning is disabled")).bind fun _ =>
      (ensure (db.insertable login.drawn.id (login.row maps db) = true)
        (.internal ("Failed to create user: " ++ login.drawn.error))).map fun _ =>
        (login.drawn.id, login.row maps db)

def MayProvision (db : Accounts) (login : SsoLogin) : Prop :=
  db.externalMatch login = none ∧ db.emailMatch maps login.email = none ∧ login.config.autoProvision = true ∧
    db.insertable login.drawn.id (login.row maps db) = true

end Accounts

inductive AccountOp where
  | register (settings : RegisterSettings) (input : CreateUser) (id : Uuid)
  | sso (login : SsoLogin)

namespace Accounts

variable (maps : CaseMaps)

def handle (db : Accounts) : AccountOp → Except AppError (Uuid × User)
  | .register settings input id => db.register settings input id
  | .sso login => db.findOrCreateUser maps login

def step (db : Accounts) (op : AccountOp) : Option Accounts :=
  match db.handle maps op with
  | .ok (id, user) => some ⟨db.users.insert id user⟩
  | .error _ => some db

def Active (db : Accounts) (id : Uuid) (user : User) : Prop :=
  db.users.lookup id = some user ∧ user.isActive = true ∧ user.deletedAt = none

/-- No two active accounts have one address. -/
def OneEach (db : Accounts) : Prop :=
  ∀ id user id' user', db.Active id user → db.Active id' user' → maps.lower user.email = maps.lower user'.email → id = id'

/-- Every spelling of the email of an active account finds the account, whoever looks for it. -/
def Agree (db : Accounts) : Prop :=
  ∀ id user, db.Active id user → ∀ email, maps.lower email = maps.lower user.email →
    db.loginUser email = some (id, user) ∧ db.registered email = some (id, user) ∧
      db.emailMatch maps email = some (id, user) ∧ db.resetUser maps email = some (id, user)

def Creates (db : Accounts) (email : String) : AccountOp → Prop
  | .register settings input id => db.MayRegister settings input id ∧ input.passwordRef.isSome = true ∧
    input.email = email
  | .sso login => db.MayProvision maps login ∧ login.email = email

/-- The email has no other spelling, and a reset looks for it as it is. -/
def SingleSpelling (email : String) : Prop :=
  (∀ email', maps.lower email' = maps.lower email → email' = email) ∧
    maps.toLowercase (trimText email) = email

/-- A registration with a password is for an address that no active account has. -/
def NewAddress (db : Accounts) : AccountOp → Prop
  | .register settings input id => db.MayRegister settings input id → input.passwordRef.isSome = true →
    ∀ k user, db.Active k user → maps.lower user.email ≠ maps.lower input.email
  | .sso _ => True

def Law (db : Accounts) : Prop := db.OneEach maps ∧ db.Agree maps

/-- An active account is created with an email that has a single spelling. -/
def Plain (db : Accounts) (op : AccountOp) : Prop :=
  ∀ email, db.Creates maps email op → SingleSpelling maps email

def UniqueEmails (db : Accounts) : Prop :=
  ∀ id user id' user', db.users.lookup id = some user → db.users.lookup id' = some user' → user.email = user'.email → id = id'

variable {maps} {db db' : Accounts} {p : User → Bool} {id : Uuid} {user : User} {email : String}
    {op : AccountOp}

theorem of_fetchOptional (h : db.fetchOptional p = some (id, user)) :
    db.users.lookup id = some user ∧ p user = true := by
  obtain ⟨e, he, heq⟩ := Option.map_eq_some_iff.1 h
  obtain ⟨rfl, rfl⟩ := Prod.mk.inj heq
  exact ⟨Assoc.mem_entries_iff.1 (List.mem_of_find?_eq_some he),
    List.find?_some (p := fun e : Sigma fun _ : Uuid => User => p e.2) he⟩

theorem fetchOptional_eq_none :
    db.fetchOptional p = none ↔ ∀ id user, db.users.lookup id = some user → p user = false := by
  rw [fetchOptional, Option.map_eq_none_iff, List.find?_eq_none]
  constructor
  · intro h id user hl
    simpa using h _ (Assoc.mem_entries_iff.2 hl)
  · intro h e he
    simpa using h e.1 e.2 (Assoc.mem_entries_iff.1 he)

theorem fetchOptional_eq_some (hl : db.users.lookup id = some user) (hp : p user = true)
    (h : ∀ id' user', db.users.lookup id' = some user' → p user' = true → id' = id) :
    db.fetchOptional p = some (id, user) := by
  cases hf : db.fetchOptional p with
  | none =>
    rw [fetchOptional_eq_none.1 hf id user hl] at hp
    cases hp
  | some e =>
    obtain ⟨hl', hp'⟩ := of_fetchOptional hf
    obtain rfl := h e.1 e.2 hl' hp'
    rw [Option.some.inj (hl.symm.trans hl')]

theorem of_insertable (h : db.insertable id user = true) :
    id ∉ db.users ∧ ∀ k other, db.users.lookup k = some other → user.email ≠ other.email := by
  simp only [insertable, Bool.and_eq_true, decide_eq_true_eq, List.all_eq_true] at h
  refine ⟨h.1.1, fun k other hl => ?_⟩
  have hd := h.2 _ (Assoc.mem_entries_iff.2 hl)
  rw [User.distinct, Bool.and_eq_true, decide_eq_true_eq] at hd
  exact hd.1

theorem email_of_loginUser (h : db.loginUser email = some (id, user)) : user.email = email := by
  have hp := (of_fetchOptional h).2
  simp only [Bool.decide_and, Bool.and_eq_true, decide_eq_true_eq] at hp
  exact hp.1

theorem email_of_resetUser (h : db.resetUser maps email = some (id, user)) :
    user.email = maps.toLowercase (trimText email) := email_of_loginUser h

theorem UniqueEmails.law_iff (hu : db.UniqueEmails) :
    db.Law maps ↔ ∀ id user, db.Active id user → SingleSpelling maps user.email := by
  constructor
  · rintro ⟨-, h⟩ id user ha
    exact ⟨fun email hs => (email_of_loginUser (h id user ha email hs).1).symm,
      (email_of_resetUser (h id user ha user.email rfl).2.2.2).symm⟩
  · intro h
    refine ⟨fun id user id' user' ha ha' hs => hu id user id' user' ha.1 ha'.1 ((h id' user' ha').1 _ hs),
      fun id user ha email hs => ?_⟩
    obtain ⟨hl, hactive, hlive⟩ := ha
    obtain ⟨hsingle, hreset⟩ := h id user ⟨hl, hactive, hlive⟩
    obtain rfl := hsingle email hs
    have hfind {p : User → Bool} (hp : p user = true) (hemail : ∀ other, p other = true → other.email = user.email) :
        db.fetchOptional p = some (id, user) :=
      fetchOptional_eq_some hl hp fun id' user' hl' hp' => hu id' user' id user hl' hl (hemail user' hp')
    refine ⟨hfind (by simp [hactive, hlive]) (by simp +contextual), hfind (by simp [hlive]) (by simp +contextual),
      hfind (by simp [hlive]) ?_, ?_⟩
    · intro other hp
      simp only [Bool.decide_and, Bool.and_eq_true, decide_eq_true_eq] at hp
      exact hsingle other.email hp.1
    · unfold resetUser
      rw [hreset]
      exact hfind (by simp [hactive, hlive]) (by simp +contextual)

/-! ### What the handlers write -/

theorem register_ok {settings : RegisterSettings} {input : CreateUser} {newId : Uuid}
    (h : db.register settings input newId = .ok (id, user)) :
    id = newId ∧ db.MayRegister settings input id ∧ db.insertable id user = true ∧
      ∃ passwordHash, user = input.row passwordHash := by
  simp only [register, bind_eq_ok, ensure_eq_ok, Except.ok.injEq, Prod.mk.injEq] at h
  obtain ⟨_, hallow, _, hhoney, _, htoken, _, hname, _, hemail, _, hnew, _, hfree, hash, hhash, _,
    hinsert, rfl, rfl⟩ := h
  exact ⟨rfl, ⟨hallow, hhoney, htoken, hname, hemail, hnew, hfree, hash, hhash, hinsert⟩, hinsert, hash, rfl⟩

theorem exists_register {settings : RegisterSettings} {input : CreateUser} (h : db.MayRegister settings input id) :
    ∃ passwordHash, db.register settings input id = .ok (id, input.row passwordHash) := by
  obtain ⟨hallow, hhoney, htoken, hname, hemail, hnew, hfree, hash, hhash, hinsert⟩ := h
  refine ⟨hash, ?_⟩
  simp only [register, bind_eq_ok, ensure_eq_ok]
  exact ⟨(), hallow, (), hhoney, (), htoken, (), hname, (), hemail, (), hnew, (), hfree, hash, hhash, (),
    hinsert, rfl⟩

/-- The rows agree in what the lookups read, but for the identity of the SSO provider. -/
structure SameAccount (user user' : User) : Prop where
  email : user'.email = user.email
  isActive : user'.isActive = user.isActive
  deletedAt : user'.deletedAt = user.deletedAt

theorem sameAccount_refresh (login : SsoLogin) (user : User) : SameAccount user (login.refresh user) :=
  ⟨rfl, rfl, rfl⟩

theorem sameAccount_link (login : SsoLogin) (user : User) :
    SameAccount user (login.refresh (login.link user)) := by
  unfold SsoLogin.link
  split
  · exact ⟨rfl, rfl, rfl⟩
  · exact ⟨rfl, rfl, rfl⟩

theorem update_ok {id' : Uuid} {user' : User} (h : update id user = .ok (id', user')) :
    id' = id ∧ user' = user := by
  unfold update ensure at h
  split at h
  · obtain ⟨rfl, rfl⟩ := Prod.mk.inj (Except.ok.inj h)
    exact ⟨rfl, rfl⟩
  · cases h

theorem findOrCreateUser_cases {login : SsoLogin} (h : db.findOrCreateUser maps login = .ok (id, user)) :
    (∃ old, db.externalMatch login = some (id, old) ∧ user = login.refresh old) ∨
    (db.externalMatch login = none ∧ ∃ old, db.emailMatch maps login.email = some (id, old) ∧
      login.linkedElsewhere old = false ∧ user.fits = true ∧ user = login.refresh (login.link old)) ∨
    db.MayProvision maps login ∧ id = login.drawn.id ∧ user = login.row maps db := by
  unfold findOrCreateUser at h
  split at h
  · next k old hext =>
    obtain ⟨rfl, rfl⟩ := update_ok h
    exact .inl ⟨old, hext, rfl⟩
  · next hext =>
    split at h
    · next k old hmatch =>
      obtain ⟨_, hlinked, h⟩ := bind_eq_ok.1 h
      obtain ⟨_, hfits, heq⟩ := map_eq_ok.1 h
      obtain ⟨rfl, rfl⟩ := Prod.mk.inj heq
      exact .inr (.inl ⟨hext, old, hmatch, ensure_eq_ok.1 hlinked, ensure_eq_ok.1 hfits, rfl⟩)
    · next hmatch =>
      obtain ⟨_, hauto, h⟩ := bind_eq_ok.1 h
      rw [ensure_eq_ok] at hauto
      unfold ensure at h
      split at h
      · next hinsert =>
        obtain ⟨rfl, rfl⟩ := Prod.mk.inj (Except.ok.inj h)
        exact .inr (.inr ⟨⟨hext, hmatch, hauto, hinsert⟩, rfl, rfl⟩)
      · cases h

theorem findOrCreateUser_ok {login : SsoLogin} (h : db.findOrCreateUser maps login = .ok (id, user)) :
    (∃ old, db.users.lookup id = some old ∧ SameAccount old user ∧ ¬ db.MayProvision maps login) ∨
      db.MayProvision maps login ∧ id = login.drawn.id ∧ user = login.row maps db := by
  rcases findOrCreateUser_cases h with ⟨old, hext, rfl⟩ | ⟨-, old, hmatch, -, -, rfl⟩ | hmay
  · obtain ⟨ext, -, hf⟩ := Option.bind_eq_some_iff.1 hext
    refine .inl ⟨old, (of_fetchOptional hf).1, sameAccount_refresh login old, fun hp => ?_⟩
    rw [hp.1] at hext
    cases hext
  · refine .inl ⟨old, (of_fetchOptional hmatch).1, sameAccount_link login old, fun hp => ?_⟩
    rw [hp.2.1] at hmatch
    cases hmatch
  · exact .inr hmay

theorem findOrCreateUser_of_mayProvision {login : SsoLogin} (h : db.MayProvision maps login) :
    db.findOrCreateUser maps login = .ok (login.drawn.id, login.row maps db) := by
  obtain ⟨hext, hmatch, hauto, hinsert⟩ := h
  rw [findOrCreateUser, hext, hmatch]
  show (ensure _ _).bind _ = _
  rw [ensure, if_pos hauto]
  show (ensure _ _).map _ = _
  rw [ensure, if_pos hinsert]
  rfl

/-- A request changes nothing that a lookup reads, or inserts a row: an active one exactly if it creates an account. -/
theorem step_cases (h : db.step maps op = some db') :
    (∀ email, ¬ db.Creates maps email op) ∧ (db' = db ∨ ∃ id old user, db.users.lookup id = some old ∧
        SameAccount old user ∧ db' = ⟨db.users.insert id user⟩) ∨
      ∃ id user, db.insertable id user = true ∧ user.deletedAt = none ∧ db' = ⟨db.users.insert id user⟩ ∧
        ∀ email, db.Creates maps email op ↔ user.isActive = true ∧ user.email = email := by
  unfold step at h
  cases op with
  | register settings input newId =>
    split at h
    · next id user hok =>
      obtain ⟨rfl, hmay, hinsert, hash, rfl⟩ := register_ok hok
      exact .inr ⟨id, _, hinsert, rfl, (Option.some.inj h).symm, fun email =>
        ⟨fun hc => ⟨hc.2.1, hc.2.2⟩, fun hc => ⟨hmay, hc.1, hc.2⟩⟩⟩
    · next e herr =>
      refine .inl ⟨fun email hc => ?_, .inl (Option.some.inj h).symm⟩
      obtain ⟨hash, hok⟩ := exists_register hc.1
      rw [handle, hok] at herr
      cases herr
  | sso login =>
    split at h
    · next id user hok =>
      rcases findOrCreateUser_ok hok with ⟨old, hl, hsame, hno⟩ | ⟨hmay, rfl, rfl⟩
      · exact .inl ⟨fun email hc => hno hc.1, .inr ⟨id, old, user, hl, hsame, (Option.some.inj h).symm⟩⟩
      · exact .inr ⟨_, _, hmay.2.2.2, rfl, (Option.some.inj h).symm, fun email =>
          ⟨fun hc => ⟨rfl, hc.2⟩, fun hc => ⟨hmay, hc.2⟩⟩⟩
    · next e herr =>
      refine .inl ⟨fun email hc => ?_, .inl (Option.some.inj h).symm⟩
      rw [handle, findOrCreateUser_of_mayProvision hc.1] at herr
      cases herr

/-! ### Runs -/

theorem active_insert {k : Uuid} {row : User} :
    (⟨db.users.insert id user⟩ : Accounts).Active k row ↔
      k = id ∧ row = user ∧ user.isActive = true ∧ user.deletedAt = none ∨ k ≠ id ∧ db.Active k row := by
  unfold Active
  constructor
  · rintro ⟨hl, hactive, hlive⟩
    rcases Assoc.lookup_insert_cases hl with ⟨rfl, rfl⟩ | ⟨hk, hl⟩
    · exact .inl ⟨rfl, rfl, hactive, hlive⟩
    · exact .inr ⟨hk, hl, hactive, hlive⟩
  · rintro (⟨rfl, rfl, hactive, hlive⟩ | ⟨hk, hl, hactive, hlive⟩)
    · exact ⟨Assoc.lookup_insert_self, hactive, hlive⟩
    · exact ⟨by rw [Assoc.lookup_insert_eq, if_neg hk, hl], hactive, hlive⟩

theorem exists_active_iff {old : User} (hl : db.users.lookup id = some old) (hsame : SameAccount old user) {k : Uuid}
    {e : String} : (∃ row, (⟨db.users.insert id user⟩ : Accounts).Active k row ∧ row.email = e) ↔
      ∃ row, db.Active k row ∧ row.email = e := by
  by_cases hk : k = id
  · subst hk
    constructor
    · rintro ⟨row, ha, rfl⟩
      rcases active_insert.1 ha with ⟨-, rfl, hactive, hlive⟩ | ⟨hk, -⟩
      · exact ⟨old, ⟨hl, hsame.isActive.symm.trans hactive, hsame.deletedAt.symm.trans hlive⟩,
          hsame.email.symm⟩
      · exact absurd rfl hk
    · rintro ⟨row, ⟨hl', hactive, hlive⟩, rfl⟩
      obtain rfl := Option.some.inj (hl.symm.trans hl')
      exact ⟨user, active_insert.2 (.inl ⟨rfl, rfl, hsame.isActive.trans hactive, hsame.deletedAt.trans hlive⟩), hsame.email⟩
  · constructor
    · rintro ⟨row, ha, he⟩
      rcases active_insert.1 ha with ⟨hk', -⟩ | ⟨-, ha⟩
      · exact absurd hk' hk
      · exact ⟨row, ha, he⟩
    · rintro ⟨row, ha, he⟩
      exact ⟨row, active_insert.2 (.inr ⟨hk, ha⟩), he⟩

theorem UniqueEmails.step (hu : db.UniqueEmails) (h : db.step maps op = some db') : db'.UniqueEmails := by
  rcases step_cases h with ⟨-, rfl | ⟨id, old, user, hl, hsame, rfl⟩⟩ | ⟨id, user, hinsert, -, rfl, -⟩
  · exact hu
  · intro k row k' row' hk hk' he
    rcases Assoc.lookup_insert_cases hk with ⟨rfl, rfl⟩ | ⟨-, hrow⟩
    · rcases Assoc.lookup_insert_cases hk' with ⟨rfl, -⟩ | ⟨-, hk'⟩
      · rfl
      · exact hu k old k' row' hl hk' (hsame.email.symm.trans he)
    · rcases Assoc.lookup_insert_cases hk' with ⟨rfl, rfl⟩ | ⟨-, hk'⟩
      · exact hu k row k' old hrow hl (he.trans hsame.email)
      · exact hu k row k' row' hrow hk' he
  · obtain ⟨-, hnew⟩ := of_insertable hinsert
    intro k row k' row' hk hk' he
    rcases Assoc.lookup_insert_cases hk with ⟨rfl, rfl⟩ | ⟨-, hrow⟩
    · rcases Assoc.lookup_insert_cases hk' with ⟨rfl, -⟩ | ⟨-, hk'⟩
      · rfl
      · exact absurd he (hnew k' row' hk')
    · rcases Assoc.lookup_insert_cases hk' with ⟨rfl, rfl⟩ | ⟨-, hk'⟩
      · exact absurd he.symm (hnew k row hrow)
      · exact hu k row k' row' hrow hk' he

theorem Law.step_iff (hu : db.UniqueEmails) (hlaw : db.Law maps) (h : db.step maps op = some db') :
    db'.Law maps ↔ db.Plain maps op := by
  rw [(hu.step h).law_iff]
  have hlaw := hu.law_iff.1 hlaw
  rcases step_cases h with ⟨hno, rfl | ⟨id, old, user, hl, hsame, rfl⟩⟩ | ⟨id, user, hinsert, hlive, rfl,
    hcreates⟩
  · exact iff_of_true hlaw fun email hc => absurd hc (hno email)
  · refine iff_of_true (fun k row ha => ?_) fun email hc => absurd hc (hno email)
    obtain ⟨row', ha', he⟩ := (exists_active_iff hl hsame).1 ⟨row, ha, rfl⟩
    rw [← he]
    exact hlaw k row' ha'
  · obtain ⟨hid, -⟩ := of_insertable hinsert
    constructor
    · intro hsingle email hc
      obtain ⟨hactive, rfl⟩ := (hcreates email).1 hc
      exact hsingle id user (active_insert.2 (.inl ⟨rfl, rfl, hactive, hlive⟩))
    · intro hplain k row ha
      rcases active_insert.1 ha with ⟨rfl, rfl, hactive, -⟩ | ⟨-, ha⟩
      · exact hplain _ ((hcreates _).2 ⟨hactive, rfl⟩)
      · exact hlaw k row ha

theorem newAddress_iff : db.NewAddress maps op ↔
    ∀ email, db.Creates maps email op → ∀ k row, db.Active k row → maps.lower row.email ≠ maps.lower email := by
  cases op with
  | register settings input id =>
    constructor
    · rintro h email ⟨hmay, hactive, rfl⟩
      exact h hmay hactive
    · exact fun h hmay hactive => h _ ⟨hmay, hactive, rfl⟩
  | sso login =>
    refine iff_of_true trivial ?_
    rintro email ⟨hmay, rfl⟩ k row ⟨hl, -, hlive⟩ he
    have hp := fetchOptional_eq_none.1 hmay.2.1 k row hl
    simp [he, hlive] at hp

theorem OneEach.step_iff (hone : db.OneEach maps) (h : db.step maps op = some db') :
    db'.OneEach maps ↔ db.NewAddress maps op := by
  rw [newAddress_iff]
  rcases step_cases h with ⟨hno, rfl | ⟨id, old, user, hl, hsame, rfl⟩⟩ | ⟨id, user, hinsert, hlive, rfl,
    hcreates⟩
  · exact iff_of_true hone fun email hc => absurd hc (hno email)
  · refine iff_of_true (fun k row k' row' ha ha' he => ?_) fun email hc => absurd hc (hno email)
    obtain ⟨u, hu, heu⟩ := (exists_active_iff hl hsame).1 ⟨row, ha, rfl⟩
    obtain ⟨u', hu', heu'⟩ := (exists_active_iff hl hsame).1 ⟨row', ha', rfl⟩
    exact hone k u k' u' hu hu' (by rw [heu, heu', he])
  · obtain ⟨hid, -⟩ := of_insertable hinsert
    have hne {k : Uuid} {row : User} (ha : db.Active k row) : k ≠ id := by
      rintro rfl
      exact hid (AList.lookup_isSome.1 (by rw [ha.1]; rfl))
    constructor
    · intro hone' email hc k row ha he
      obtain ⟨hactive, rfl⟩ := (hcreates email).1 hc
      exact hne ha (hone' k row id user (active_insert.2 (.inr ⟨hne ha, ha⟩))
        (active_insert.2 (.inl ⟨rfl, rfl, hactive, hlive⟩)) he)
    · intro hnew k row k' row' ha ha' he
      rcases active_insert.1 ha with ⟨rfl, rfl, hactive, -⟩ | ⟨-, hrow⟩
      · rcases active_insert.1 ha' with ⟨rfl, -⟩ | ⟨-, ha'⟩
        · rfl
        · exact absurd he.symm (hnew _ ((hcreates _).2 ⟨hactive, rfl⟩) k' row' ha')
      · rcases active_insert.1 ha' with ⟨rfl, rfl, hactive, -⟩ | ⟨-, ha'⟩
        · exact absurd he (hnew _ ((hcreates _).2 ⟨hactive, rfl⟩) k row hrow)
        · exact hone k row k' row' hrow ha' he

/-- The addresses of the active accounts stay apart if and only if no registration is for the address of an active
account. The four lookups agree as well if and only if the accounts are created with emails of a single spelling. -/
theorem law_iff_plain (maps : CaseMaps) (ops : List AccountOp) :
    (Run.AllStates (step maps) (OneEach maps) ⟨∅⟩ ops ↔ Run.AllSteps (step maps) (NewAddress maps) ⟨∅⟩ ops) ∧
      (Run.AllStates (step maps) (Law maps) ⟨∅⟩ ops ↔ Run.AllSteps (step maps) (Plain maps) ⟨∅⟩ ops) := by
  have henabled (db : Accounts) (op : AccountOp) : ∃ db', db.step maps op = some db' := by
    unfold step
    split
    · exact ⟨_, rfl⟩
    · exact ⟨_, rfl⟩
  obtain ⟨t, ht⟩ := Run.exists_exec_of_enabled henabled ⟨∅⟩ ops
  have hempty (id : Uuid) (user : User) : (⟨∅⟩ : Accounts).users.lookup id ≠ some user := by
    intro hl
    rw [AList.lookup_empty] at hl
    cases hl
  have hone : (⟨∅⟩ : Accounts).OneEach maps := fun id user _ _ ha => absurd ha.1 (hempty id user)
  have hu : (⟨∅⟩ : Accounts).UniqueEmails := fun id user _ _ hl => absurd hl (hempty id user)
  constructor
  · exact Run.allStates_iff_allSteps (I := fun _ => True) (fun _ _ _ _ _ => trivial)
      (fun _ _ _ _ hone h => hone.step_iff h) trivial hone ht
  · exact Run.allStates_iff_allSteps (fun _ _ _ hu h => hu.step h) (fun _ _ _ hu hlaw h => hlaw.step_iff hu h) hu
      ⟨hone, fun id user ha => absurd ha.1 (hempty id user)⟩ ht

/-- Two registrations with two spellings of one address. -/
def twoSpellings : List AccountOp :=
  let settings : RegisterSettings := ⟨true, false, fun _ => true, .ok⟩
  [.register settings ⟨"ann", "Ann@a.b", some "secret", none, none, none, none⟩ 1,
    .register settings ⟨"bob", "ann@a.b", some "secret", none, none, none, none⟩ 2]

def asciiMaps : CaseMaps :=
  let lower (text : String) := String.ofList (text.toList.map Char.toLower)
  ⟨lower, lower, Char.isAlphanum⟩

theorem two_accounts : ¬ Run.AllStates (step asciiMaps) (Law asciiMaps) ⟨∅⟩ twoSpellings := by
  intro h
  have hlaw := h twoSpellings [] rfl _ rfl
  exact absurd (hlaw.1 1 _ 2 _ ⟨rfl, rfl, rfl⟩ ⟨rfl, rfl, rfl⟩ rfl) (by decide)

end Accounts
end Rustchat
