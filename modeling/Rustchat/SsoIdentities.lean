import Rustchat.EmailAccounts
import Rustchat.OauthLogin

/-!
# SSO identities and accounts (`api/oauth.rs`)

An SSO login is for the account that its identity is linked to, and else for the account that has its email. What the
provider says of the email depends on the protocol: GitHub lists emails with a flag, or shows one without; an ID token
has a claim that may be missing; the userinfo endpoint has it as well, but it is not read. The account is one that the
identity is linked to or whose email the provider has verified, as long as the provider vouches for the email whenever it
decides (`Accounts.logins_of_run`). An identity that is linked to an account stays with it.
-/

namespace Rustchat

structure GitHubUser where
  id : Int
  login : String
  name : Option String
  email : Option String

structure GitHubEmail where
  email : String
  primary : Bool
  verified : Bool

structure GitHubAnswers where
  user : GitHubUser
  -- `/user/emails`, or what is made of an answer that is none
  emails : Except AppError (List GitHubEmail)
  -- whether the organization and the team are those of the configuration
  restrictions : Except AppError Unit

namespace GitHubAnswers

def primaryEmail (emails : List GitHubEmail) : Option GitHubEmail :=
  (emails.find? fun e => e.primary && e.verified).orElse fun _ => emails.find? (·.verified)

def email (answers : GitHubAnswers) : Except AppError String :=
  match answers.user.email with
  | some email => .ok email
  | none => answers.emails.bind fun emails =>
    (okOr (primaryEmail emails) (.badRequest "No verified email found for GitHub account")).map (·.email)

/-- `exchange_github_token` -/
def userInfo (answers : GitHubAnswers) : Except AppError (String × UserInfo) :=
  answers.email.bind fun email => answers.restrictions.map fun _ =>
    (email, ⟨answers.user.name, some answers.user.login, [], some (toString answers.user.id)⟩)

end GitHubAnswers

structure IdTokenClaims where
  sub : String
  email : Option String
  emailVerified : Option Bool
  name : Option String
  preferredUsername : Option String
  groups : Option (List String)
  extra : List (String × Json)

structure UserInfoResponse where
  sub : String
  email : Option String
  emailVerified : Option Bool
  name : Option String
  preferredUsername : Option String
  extra : List (String × Json)

structure OidcAnswers where
  -- the claims of the ID token, if the provider sends one
  claims : Option (Except AppError IdTokenClaims)
  -- the answer of the userinfo endpoint, if there is one
  userinfo : Option (Except AppError UserInfoResponse)

structure SsoRequest where
  providerKey : String
  config : SsoConfig
  groupsClaim : Option String
  allowDomains : Option (List String)
  gitHub : GitHubAnswers
  oidc : OidcAnswers
  drawn : SsoDrawn

namespace SsoRequest

variable (req : SsoRequest)

def extraGroups (extra : List (String × Json)) : List String :=
  match extra.lookup (req.groupsClaim.getD "groups") with
  | some (.arr values) => values.filterMap Json.asStr
  | _ => []

def extractGroups (claims : IdTokenClaims) : List String := claims.groups.getD (req.extraGroups claims.extra)

/-- `email.split('@').nth(1)` -/
def emailDomain (email : String) : Option String :=
  match email.toList.dropWhile (· ≠ '@') with
  | [] => none
  | _ :: rest => some (String.ofList (rest.takeWhile (· ≠ '@')))

def checkDomain (email : String) : Except AppError Unit :=
  let allowed := req.allowDomains.getD []
  if req.config.providerType = "google" ∧ allowed ≠ [] then
    (okOr (emailDomain email) (.badRequest "Invalid email format")).bind fun domain =>
      ensure (domain ∈ allowed) (.forbidden ("Email domain '" ++ domain ++ "' not allowed"))
  else .ok ()

/-- `exchange_oidc_token` -/
def oidcUserInfo : Except AppError (String × UserInfo) :=
  match req.oidc.claims, req.oidc.userinfo with
  | some (.error e), _ => .error e
  | some (.ok claims), _ =>
    (ensure (claims.emailVerified ≠ some false) (.forbidden "Email not verified with OAuth provider")).bind fun _ =>
    (req.checkDomain (claims.email.getD "")).map fun _ =>
      (claims.email.getD "", ⟨claims.name, claims.preferredUsername, req.extractGroups claims, some claims.sub⟩)
  | none, some (.error e) => .error e
  | none, some (.ok info) => (req.checkDomain (info.email.getD "")).map fun _ =>
    (info.email.getD "", ⟨info.name, info.preferredUsername, req.extraGroups info.extra, some info.sub⟩)
  | none, none => .error (.internal "No ID token or UserInfo endpoint available")

def identify : Except AppError (String × UserInfo) :=
  match Oauth.SsoProviderType.fromStr req.config.providerType with
  | some .gitHub => req.gitHub.userInfo
  | some .google => req.oidcUserInfo
  | some .oidc => req.oidcUserInfo
  | some .saml => .error (.badRequest "SAML not supported")
  | none => .error (.internal ("Unknown provider type: " ++ req.config.providerType))

/-- The login that `find_or_create_user` gets. -/
def login : Except AppError SsoLogin :=
  req.identify.map fun info => ⟨info.1, info.2, req.config, req.providerKey, req.drawn⟩

end SsoRequest

namespace Accounts

variable (maps : CaseMaps)

def ssoLogin (db : Accounts) (req : SsoRequest) : Except AppError (Uuid × User) :=
  req.login.bind fun login => db.findOrCreateUser maps login

end Accounts

inductive SsoOp
  | register (settings : RegisterSettings) (input : CreateUser) (id : Uuid)
  | sso (req : SsoRequest)
  -- an account is changed elsewhere
  | edit (id : Uuid) (user : User)

/-- A change that is made elsewhere leaves the link of an account as it is, and does not delete a linked account. -/
def User.keepsLink (user user' : User) : Bool :=
  decide (user'.authProvider = user.authProvider ∧ user'.authProviderId = user.authProviderId) &&
    (user.authProviderId.isNone || decide (user'.deletedAt = user.deletedAt))

def User.LinkedTo (user : User) (providerKey externalId : String) : Prop :=
  user.authProvider = some providerKey ∧ user.authProviderId = some externalId ∧ user.deletedAt = none

namespace Accounts

variable (maps : CaseMaps)

def ssoStep (db : Accounts) : SsoOp → Option Accounts
  | .register settings input id =>
    match db.register settings input id with
    | .ok (id, user) => some ⟨db.users.insert id user⟩
    | .error _ => some db
  | .sso req =>
    match db.ssoLogin maps req with
    | .ok (id, user) => some ⟨db.users.insert id user⟩
    | .error _ => some db
  | .edit id user' =>
    match db.users.lookup id with
    | some user => if user.keepsLink user' then some ⟨db.users.insert id user'⟩ else none
    | none => none

def Linked (db : Accounts) (id : Uuid) (providerKey externalId : String) : Prop :=
  ∃ user, db.users.lookup id = some user ∧ user.LinkedTo providerKey externalId

end Accounts

def GitHubAnswers.Vouches (answers : GitHubAnswers) (email : String) : Prop :=
  answers.user.email = none ∧ ∃ emails, answers.emails = .ok emails ∧ ∃ e ∈ emails, e.email = email ∧ e.verified = true

def OidcAnswers.Vouches (answers : OidcAnswers) (email : String) : Prop :=
  match answers.claims with
  | some (.ok claims) => claims.email = some email ∧ claims.emailVerified = some true
  | some (.error _) => False
  | none => ∃ info, answers.userinfo = some (.ok info) ∧ info.email = some email ∧ info.emailVerified = some true

def SsoRequest.Vouches (req : SsoRequest) (email : String) : Prop :=
  match Oauth.SsoProviderType.fromStr req.config.providerType with
  | some .gitHub => req.gitHub.Vouches email
  | some .google => req.oidc.Vouches email
  | some .oidc => req.oidc.Vouches email
  | _ => False

namespace Accounts

variable (maps : CaseMaps)

/-- A login that is granted as an account that exists is for one that its identity is linked to, or for one whose email
the provider has verified. -/
def Safe (db : Accounts) (req : SsoRequest) : Prop :=
  ∀ login, req.login = .ok login → ∀ id user old, db.ssoLogin maps req = .ok (id, user) →
    db.users.lookup id = some old → (∃ externalId, login.externalId = some externalId ∧
      db.Linked id req.providerKey externalId) ∨
    req.Vouches login.email ∧ login.email ≠ "" ∧ maps.lower login.email = maps.lower old.email

/-- Whenever the email decides for an account, and its row can be written, the provider vouches for the email. -/
def Careful (db : Accounts) (req : SsoRequest) : Prop :=
  ∀ login, req.login = .ok login → db.externalMatch login = none →
    ∀ id user, db.emailMatch maps login.email = some (id, user) → login.linkedElsewhere user = false →
      (login.refresh (login.link user)).fits = true → req.Vouches login.email ∧ login.email ≠ ""

/-- Whoever has an identity that is linked to an account gets no other one. -/
def Stays (db db' : Accounts) : Prop :=
  ∀ id providerKey externalId, db.Linked id providerKey externalId →
    ∀ req login, req.login = .ok login → req.providerKey = providerKey → login.externalId = some externalId →
    ∀ id' user, db'.ssoLogin maps req = .ok (id', user) → id' = id

variable {maps} {db db' : Accounts} {id : Uuid} {user old : User} {login : SsoLogin} {req : SsoRequest}
    {providerKey externalId : String}

theorem externalMatch_eq_some (h : db.externalMatch login = some (id, user)) :
    ∃ externalId, login.externalId = some externalId ∧ db.users.lookup id = some user ∧
      user.LinkedTo login.providerKey externalId := by
  obtain ⟨externalId, hext, hf⟩ := Option.bind_eq_some_iff.1 h
  obtain ⟨hl, hp⟩ := of_fetchOptional hf
  simp only [decide_eq_true_eq] at hp
  exact ⟨externalId, hext, hl, hp⟩

theorem not_linked_of_externalMatch (h : db.externalMatch login = none) (hext : login.externalId = some externalId) :
    ¬ db.Linked id login.providerKey externalId := by
  rintro ⟨user, hl, hlinked⟩
  rw [externalMatch, hext, Option.bind_some] at h
  have hp := fetchOptional_eq_none.1 h id user hl
  simp only [decide_eq_false_iff_not] at hp
  exact hp hlinked

theorem ssoLogin_ok (h : db.ssoLogin maps req = .ok (id, user)) :
    ∃ login, req.login = .ok login ∧ login.providerKey = req.providerKey ∧
      db.findOrCreateUser maps login = .ok (id, user) := by
  obtain ⟨login, hlogin, hfound⟩ := bind_eq_ok.1 h
  obtain ⟨info, -, rfl⟩ := map_eq_ok.1 hlogin
  exact ⟨_, hlogin, rfl, hfound⟩

/-! ### What is written -/

def UniqueLinks (db : Accounts) : Prop :=
  ∀ id id' providerKey externalId, db.Linked id providerKey externalId → db.Linked id' providerKey externalId → id = id'

/-- The row keeps the link of the account that it is written over, and takes no link from another account. -/
structure LinkWrite (db : Accounts) (id : Uuid) (user : User) : Prop where
  keeps : ∀ providerKey externalId, db.Linked id providerKey externalId → user.LinkedTo providerKey externalId
  takes : ∀ providerKey externalId, user.LinkedTo providerKey externalId →
    ∀ k, db.Linked k providerKey externalId → k = id

theorem linked_insert {k : Uuid} : (⟨db.users.insert id user⟩ : Accounts).Linked k providerKey externalId ↔
    k = id ∧ user.LinkedTo providerKey externalId ∨ k ≠ id ∧ db.Linked k providerKey externalId := by
  constructor
  · rintro ⟨row, hl, hrow⟩
    rcases Assoc.lookup_insert_cases hl with ⟨rfl, rfl⟩ | ⟨hk, hl⟩
    · exact .inl ⟨rfl, hrow⟩
    · exact .inr ⟨hk, row, hl, hrow⟩
  · rintro (⟨rfl, hrow⟩ | ⟨hk, row, hl, hrow⟩)
    · exact ⟨user, Assoc.lookup_insert_self, hrow⟩
    · exact ⟨row, by rw [Assoc.lookup_insert_eq, if_neg hk, hl], hrow⟩

theorem LinkWrite.linked (h : db.LinkWrite id user) {k : Uuid} (hk : db.Linked k providerKey externalId) :
    (⟨db.users.insert id user⟩ : Accounts).Linked k providerKey externalId := by
  rw [linked_insert]
  rcases eq_or_ne k id with rfl | hne
  · exact .inl ⟨rfl, h.keeps _ _ hk⟩
  · exact .inr ⟨hne, hk⟩

theorem LinkWrite.unique (h : db.LinkWrite id user) (hu : db.UniqueLinks) :
    (⟨db.users.insert id user⟩ : Accounts).UniqueLinks := by
  intro k k' providerKey externalId hk hk'
  rcases linked_insert.1 hk with ⟨rfl, hrow⟩ | ⟨hne, hold⟩
  · rcases linked_insert.1 hk' with ⟨rfl, -⟩ | ⟨-, hold'⟩
    · rfl
    · exact (h.takes _ _ hrow k' hold').symm
  · rcases linked_insert.1 hk' with ⟨rfl, hrow'⟩ | ⟨-, hold'⟩
    · exact h.takes _ _ hrow' k hold
    · exact hu k k' _ _ hold hold'

theorem linkWrite_of_same (hu : db.UniqueLinks) (hl : db.users.lookup id = some old)
    (hsame : ∀ providerKey externalId, user.LinkedTo providerKey externalId ↔ old.LinkedTo providerKey externalId) :
    db.LinkWrite id user := by
  constructor
  · rintro providerKey externalId ⟨row, hl', hrow⟩
    obtain rfl := Option.some.inj (hl.symm.trans hl')
    exact (hsame _ _).2 hrow
  · intro providerKey externalId hrow k hk
    exact hu k id _ _ hk ⟨old, hl, (hsame _ _).1 hrow⟩

/-- A row for a new account, or for one without a link, that is linked to what no account is linked to. -/
theorem linkWrite_of_free (hold : ∀ providerKey externalId, ¬ db.Linked id providerKey externalId)
    (hfree : ∀ providerKey externalId, user.LinkedTo providerKey externalId → ∀ k, ¬ db.Linked k providerKey externalId) :
    db.LinkWrite id user :=
  ⟨fun _ _ h => absurd h (hold _ _), fun _ _ hrow k hk => absurd hk (hfree _ _ hrow k)⟩

theorem not_linked_of_insertable (h : db.insertable id user = true) : ¬ db.Linked id providerKey externalId := by
  rintro ⟨row, hl, -⟩
  exact (of_insertable h).1 (AList.lookup_isSome.1 (by rw [hl]; rfl))

theorem linkWrite_findOrCreateUser (hu : db.UniqueLinks) (h : db.findOrCreateUser maps login = .ok (id, user)) :
    db.LinkWrite id user := by
  rcases findOrCreateUser_cases h with ⟨old, hext, rfl⟩ | ⟨hext, old, hmatch, -, -, rfl⟩ | ⟨hmay, rfl, rfl⟩
  · obtain ⟨-, -, hl, -⟩ := externalMatch_eq_some hext
    exact linkWrite_of_same hu hl fun _ _ => Iff.rfl
  · obtain ⟨hl, -⟩ := of_fetchOptional hmatch
    by_cases hlink : login.externalId.isSome ∧ old.authProviderId = none
    · refine linkWrite_of_free ?_ ?_
      · rintro providerKey externalId ⟨row, hl', -, hrow, -⟩
        obtain rfl := Option.some.inj (hl.symm.trans hl')
        rw [hlink.2] at hrow
        cases hrow
      · rintro providerKey externalId ⟨hkey, hid, -⟩ k hk
        rw [SsoLogin.link, if_pos hlink] at hkey hid
        obtain rfl : login.providerKey = providerKey := Option.some.inj hkey
        exact not_linked_of_externalMatch hext hid hk
    · refine linkWrite_of_same hu hl fun providerKey externalId => ?_
      rw [SsoLogin.link, if_neg hlink]
      exact Iff.rfl
  · refine linkWrite_of_free (fun _ _ => not_linked_of_insertable hmay.2.2.2) ?_
    rintro providerKey externalId ⟨hkey, hid, -⟩ k hk
    obtain rfl : login.providerKey = providerKey := Option.some.inj hkey
    exact not_linked_of_externalMatch hmay.1 hid hk

theorem ssoStep_cases {op : SsoOp} (hu : db.UniqueLinks) (h : db.ssoStep maps op = some db') :
    db' = db ∨ ∃ id user, db.LinkWrite id user ∧ db' = ⟨db.users.insert id user⟩ := by
  cases op with
  | register settings input newId =>
    dsimp only [ssoStep] at h
    split at h
    · next id user hok =>
      obtain ⟨rfl, -, hinsert, hash, rfl⟩ := register_ok hok
      refine .inr ⟨id, _, linkWrite_of_free (fun _ _ => not_linked_of_insertable hinsert) ?_, (Option.some.inj h).symm⟩
      rintro providerKey externalId ⟨hkey, -⟩
      cases hkey
    · exact .inl (Option.some.inj h).symm
  | sso req =>
    dsimp only [ssoStep] at h
    split at h
    · next id user hok =>
      obtain ⟨login, -, -, hfound⟩ := ssoLogin_ok hok
      exact .inr ⟨id, user, linkWrite_findOrCreateUser hu hfound, (Option.some.inj h).symm⟩
    · exact .inl (Option.some.inj h).symm
  | edit id user =>
    dsimp only [ssoStep] at h
    split at h
    · next old hl =>
      split at h
      · next hkeeps =>
        refine .inr ⟨id, user, linkWrite_of_same hu hl fun providerKey externalId => ?_, (Option.some.inj h).symm⟩
        simp only [User.keepsLink, Bool.and_eq_true, decide_eq_true_eq, Bool.or_eq_true, Option.isNone_iff_eq_none] at hkeeps
        obtain ⟨⟨hprovider, hid⟩, hdeleted⟩ := hkeeps
        unfold User.LinkedTo
        rw [hprovider, hid]
        refine and_congr_right fun _ => and_congr_right fun hsome => ?_
        rcases hdeleted with hnone | hdeleted
        · rw [hnone] at hsome
          cases hsome
        · rw [hdeleted]
      · cases h
    · cases h

theorem UniqueLinks.step {op : SsoOp} (hu : db.UniqueLinks) (h : db.ssoStep maps op = some db') : db'.UniqueLinks := by
  rcases ssoStep_cases hu h with rfl | ⟨id, user, hwrite, rfl⟩
  · exact hu
  · exact hwrite.unique hu

theorem linked_step {op : SsoOp} (hu : db.UniqueLinks) (h : db.ssoStep maps op = some db')
    (hl : db.Linked id providerKey externalId) : db'.Linked id providerKey externalId := by
  rcases ssoStep_cases hu h with rfl | ⟨k, user, hwrite, rfl⟩
  · exact hl
  · exact hwrite.linked hl

/-! ### Every run -/

theorem safe_of_careful (h : db.Careful maps req) : db.Safe maps req := by
  intro login hlogin id user old hok hold
  obtain ⟨login', hlogin', hkey, hfound⟩ := ssoLogin_ok hok
  obtain rfl : login = login' := Except.ok.inj (hlogin.symm.trans hlogin')
  rcases findOrCreateUser_cases hfound with ⟨row, hext, rfl⟩ | ⟨hext, row, hmatch, hlinked, hfits, rfl⟩ | ⟨hmay, rfl, rfl⟩
  · obtain ⟨externalId, hid, hl, hrow⟩ := externalMatch_eq_some hext
    rw [hkey] at hrow
    exact .inl ⟨externalId, hid, row, hl, hrow⟩
  · obtain ⟨hl, hp⟩ := of_fetchOptional hmatch
    obtain rfl := Option.some.inj (hl.symm.trans hold)
    obtain ⟨hvouches, hne⟩ := h login hlogin hext id row hmatch hlinked hfits
    simp only [decide_eq_true_eq] at hp
    exact .inr ⟨hvouches, hne, hp.1.symm⟩
  · exact absurd (AList.lookup_isSome.1 (by rw [hold]; rfl)) (of_insertable hmay.2.2.2).1

theorem careful_of_safe (h : db.Safe maps req) : db.Careful maps req := by
  intro login hlogin hext id user hmatch hlinked hfits
  have hkey : login.providerKey = req.providerKey := by
    obtain ⟨info, -, rfl⟩ := map_eq_ok.1 hlogin
    rfl
  have hok : db.ssoLogin maps req = .ok (id, login.refresh (login.link user)) := by
    refine bind_eq_ok.2 ⟨login, hlogin, ?_⟩
    rw [findOrCreateUser, hext, hmatch]
    refine bind_eq_ok.2 ⟨(), ensure_eq_ok.2 hlinked, ?_⟩
    rw [update, ensure, if_pos hfits]
    rfl
  rcases h login hlogin id _ user hok (of_fetchOptional hmatch).1 with ⟨externalId, hid, hl⟩ | ⟨hvouches, hne, -⟩
  · rw [← hkey] at hl
    exact absurd hl (not_linked_of_externalMatch hext hid)
  · exact ⟨hvouches, hne⟩

theorem granted_of_linked (hu : db.UniqueLinks) (hl : db.Linked id req.providerKey externalId)
    (hlogin : req.login = .ok login) (hext : login.externalId = some externalId) {id' : Uuid}
    (hok : db.ssoLogin maps req = .ok (id', user)) : id' = id := by
  obtain ⟨login', hlogin', hkey, hfound⟩ := ssoLogin_ok hok
  obtain rfl : login = login' := Except.ok.inj (hlogin.symm.trans hlogin')
  rw [← hkey] at hl
  rcases findOrCreateUser_cases hfound with ⟨row, hmatch, rfl⟩ | ⟨hnone, -⟩ | ⟨hmay, -⟩
  · obtain ⟨externalId', hid, hlookup, hrow⟩ := externalMatch_eq_some hmatch
    obtain rfl := Option.some.inj (hext.symm.trans hid)
    exact hu id' id _ _ ⟨row, hlookup, hrow⟩ hl
  · exact absurd hl (not_linked_of_externalMatch hnone hext)
  · exact absurd hl (not_linked_of_externalMatch hmay.1 hext)

/-- The logins of a run are granted as the accounts that their identities are linked to, or whose emails are verified, if
and only if the provider vouches for the emails that decide. In every run an identity that is linked to an account stays
with it. -/
theorem logins_of_run (maps : CaseMaps) (ops : List SsoOp) :
    (Run.AllSteps (ssoStep maps) (fun db op => ∀ req, op = .sso req → db.Safe maps req) ⟨∅⟩ ops ↔
      Run.AllSteps (ssoStep maps) (fun db op => ∀ req, op = .sso req → db.Careful maps req) ⟨∅⟩ ops) ∧
      Run.AllSpans (ssoStep maps) (Stays maps) ⟨∅⟩ ops := by
  have hempty : (⟨∅⟩ : Accounts).UniqueLinks := by
    rintro id id' providerKey externalId ⟨user, hl, -⟩
    cases hl
  refine ⟨⟨fun h pre op suf hsplit db hdb req hop => ?safe, fun h pre op suf hsplit db hdb req hop => ?careful⟩, ?stays⟩
  case safe => exact careful_of_safe (h pre op suf hsplit db hdb req hop)
  case careful => exact safe_of_careful (h pre op suf hsplit db hdb req hop)
  case stays =>
    rintro pre mid suf - db db' hdb hdb' id providerKey externalId hl req login hlogin rfl hext id' user hok
    have hu : db.UniqueLinks := Run.invariant_last (fun _ _ _ hu hs => hu.step hs) hempty hdb
    have hkept : db'.UniqueLinks ∧ db'.Linked id req.providerKey externalId :=
      Run.invariant_last (I := fun db => db.UniqueLinks ∧ db.Linked id req.providerKey externalId)
        (fun _ _ _ h hs => ⟨h.1.step hs, linked_step h.1 hs h.2⟩) ⟨hu, hl⟩ hdb'
    exact granted_of_linked hkept.1 hkept.2 hlogin hext hok

/-- An ID token with the email of an account, and nothing said of whether it is verified. -/
def unverified : SsoRequest where
  providerKey := "idp"
  config := ⟨0, "oidc", false, none, none⟩
  groupsClaim := none
  allowDomains := none
  gitHub := ⟨⟨0, "", none, none⟩, .ok [], .ok ()⟩
  oidc := ⟨some (.ok ⟨"x", some "Ann@a.b", none, none, none, none, []⟩), none⟩
  drawn := ⟨2, 0, "", ""⟩

def takeover : List SsoOp :=
  [.register ⟨true, false, fun _ => true, .ok⟩ ⟨"ann", "ann@a.b", some "secret", none, none, none, none⟩ 1,
    .sso unverified]

theorem taken_over : ¬ Run.AllSteps (ssoStep asciiMaps) (fun db op => ∀ req, op = .sso req → db.Safe asciiMaps req) ⟨∅⟩
    takeover := by
  intro h
  have hsafe := h [_] (.sso unverified) [] rfl _ rfl unverified rfl _ rfl 1 _ _ rfl rfl
  rcases hsafe with ⟨externalId, -, user, hl, hprovider, -⟩ | ⟨⟨-, hverified⟩, -⟩
  · cases hl
    cases hprovider
  · cases hverified

end Accounts

end Rustchat
