import Rustchat.OauthExchange

/-!
# OAuth logins (`api/oauth.rs`)

A login keeps what it was asked for under a random state in Redis and sends the browser to the provider. The callback
that comes back with the state takes it out, asks the provider who has logged in, and makes the exchange code. A mobile
app gives a state of its own and a code challenge for the code to be bound to. The code is bound if both are given: the
challenge of a login without a state is dropped, and the code is for everybody who has it (`Oauth.bound_iff`).
-/

namespace Rustchat

namespace Oauth

def toAsciiUppercase (text : String) : String := String.ofList (text.toList.map Char.toUpper)

def toAsciiLowercase (text : String) : String := String.ofList (text.toList.map Char.toLower)

structure OAuthStatePayload where
  providerKey : String
  redirectAfter : String
  createdAt : Int
  nonce : Option String
  codeVerifier : Option String
  codeChallengeMethod : Option String
  isMobile : Bool
  mobileSsoState : Option String
  mobileSsoCodeChallenge : Option String
  mobileSsoCodeChallengeMethod : Option String
  mobileRedirectTo : Option String

namespace OAuthStatePayload

def toJson (p : OAuthStatePayload) : Json :=
  .obj [("provider_key", .str p.providerKey), ("redirect_after", .str p.redirectAfter), ("created_at", .num p.createdAt),
    ("nonce", .ofOpt .str p.nonce), ("code_verifier", .ofOpt .str p.codeVerifier),
    ("code_challenge_method", .ofOpt .str p.codeChallengeMethod), ("is_mobile", .bool p.isMobile),
    ("mobile_sso_state", .ofOpt .str p.mobileSsoState),
    ("mobile_sso_code_challenge", .ofOpt .str p.mobileSsoCodeChallenge),
    ("mobile_sso_code_challenge_method", .ofOpt .str p.mobileSsoCodeChallengeMethod),
    ("mobile_redirect_to", .ofOpt .str p.mobileRedirectTo)]

def ofJson (v : Json) : Option OAuthStatePayload := do
  let providerKey ← v.field "provider_key" Json.asStr
  let redirectAfter ← v.field "redirect_after" Json.asStr
  let createdAt ← v.field "created_at" (Json.asInt 64)
  let nonce ← v.optField "nonce" Json.asStr
  let codeVerifier ← v.optField "code_verifier" Json.asStr
  let codeChallengeMethod ← v.optField "code_challenge_method" Json.asStr
  let isMobile ← v.field "is_mobile" Json.asBool
  let mobileSsoState ← v.optField "mobile_sso_state" Json.asStr
  let mobileSsoCodeChallenge ← v.optField "mobile_sso_code_challenge" Json.asStr
  let mobileSsoCodeChallengeMethod ← v.optField "mobile_sso_code_challenge_method" Json.asStr
  let mobileRedirectTo ← v.optField "mobile_redirect_to" Json.asStr
  some ⟨providerKey, redirectAfter, createdAt, nonce, codeVerifier, codeChallengeMethod, isMobile, mobileSsoState,
    mobileSsoCodeChallenge, mobileSsoCodeChallengeMethod, mobileRedirectTo⟩

/-- `serde_json::to_string` -/
def serialize (p : OAuthStatePayload) : String := p.toJson.render

/-- `serde_json::from_str` -/
def deserialize (text : String) : Option OAuthStatePayload := (Json.parse text).bind ofJson

section Fields

variable (p : OAuthStatePayload)

theorem field_providerKey : p.toJson.field "provider_key" Json.asStr = some p.providerKey := by
  simp [Json.field, toJson, Json.get?, Json.asStr]

theorem field_redirectAfter : p.toJson.field "redirect_after" Json.asStr = some p.redirectAfter := by
  simp [Json.field, toJson, Json.get?, List.lookup_cons, Json.asStr]

theorem field_createdAt : p.toJson.field "created_at" (Json.asInt 64) = Json.asInt 64 (.num p.createdAt) := by
  simp [Json.field, toJson, Json.get?, List.lookup_cons]

theorem field_isMobile : p.toJson.field "is_mobile" Json.asBool = some p.isMobile := by
  simp [Json.field, toJson, Json.get?, List.lookup_cons, Json.asBool]

theorem optField_of_mem (key : String) (o : Option String)
    (h : (key, o) ∈ [("nonce", p.nonce), ("code_verifier", p.codeVerifier),
      ("code_challenge_method", p.codeChallengeMethod), ("mobile_sso_state", p.mobileSsoState),
      ("mobile_sso_code_challenge", p.mobileSsoCodeChallenge),
      ("mobile_sso_code_challenge_method", p.mobileSsoCodeChallengeMethod), ("mobile_redirect_to", p.mobileRedirectTo)]) :
    p.toJson.optField key Json.asStr = some o := by
  refine ExchangeCodePayload.optField_ofOpt o ?_
  simp only [List.mem_cons, Prod.mk.injEq, List.not_mem_nil, or_false] at h
  rcases h with ⟨rfl, rfl⟩ | ⟨rfl, rfl⟩ | ⟨rfl, rfl⟩ | ⟨rfl, rfl⟩ | ⟨rfl, rfl⟩ | ⟨rfl, rfl⟩ | ⟨rfl, rfl⟩ <;>
    simp [toJson, Json.get?, List.lookup_cons]

end Fields

theorem deserialize_serialize (p : OAuthStatePayload) :
    deserialize p.serialize = (Json.asInt 64 (.num p.createdAt)).map fun _ => p := by
  rw [deserialize, serialize, Json.parse_render, Option.bind_some, ofJson, p.field_providerKey, p.field_redirectAfter,
    p.field_createdAt, p.field_isMobile, p.optField_of_mem "nonce" p.nonce (by simp),
    p.optField_of_mem "code_verifier" p.codeVerifier (by simp),
    p.optField_of_mem "code_challenge_method" p.codeChallengeMethod (by simp),
    p.optField_of_mem "mobile_sso_state" p.mobileSsoState (by simp),
    p.optField_of_mem "mobile_sso_code_challenge" p.mobileSsoCodeChallenge (by simp),
    p.optField_of_mem "mobile_sso_code_challenge_method" p.mobileSsoCodeChallengeMethod (by simp),
    p.optField_of_mem "mobile_redirect_to" p.mobileRedirectTo (by simp), Json.asInt]
  split
  · rfl
  · rfl

theorem eq_of_deserialize {p q : OAuthStatePayload} (h : deserialize p.serialize = some q) : p = q := by
  rw [deserialize_serialize] at h
  obtain ⟨_, -, heq⟩ := Option.map_eq_some_iff.1 h
  exact heq

end OAuthStatePayload

structure ProviderConfig where
  clientId : Option String
  providerType : String
  clientSecretEncrypted : Option String
  issuerUrl : Option String
  scopes : List String

inductive SsoProviderType
  | gitHub
  | google
  | oidc
  | saml

def SsoProviderType.fromStr : String → Option SsoProviderType
  | "github" => some .gitHub
  | "google" => some .google
  | "oidc" => some .oidc
  | "saml" => some .saml
  | _ => none

def SsoProviderType.defaultScopes : SsoProviderType → List String
  | gitHub => ["read:user", "user:email"]
  | _ => ["openid", "profile", "email"]

structure SignedIn where
  id : Uuid
  email : String
  role : String
  orgId : Option Uuid

inductive OauthAct
  | exchange (act : ExchangeAct)
  | get (key : String)
  | del (key : String)
  -- the active row of `sso_configs`
  | config (providerKey : String)
  -- the setting of the site, or the default
  | appCustomUrlSchemes
  | siteUrl
  -- the authorization endpoint of an issuer
  | discover (issuer : String)
  -- what the provider says of who has the code, with the account that is found or made for them
  | signIn (providerKey : String) (config : ProviderConfig) (code callbackUrl : String) (codeVerifier nonce : Option String)

def OauthAct.Res : OauthAct → Type
  | exchange act => act.Res
  | get _ => Option (Option String)
  | del _ => Option Unit
  | config _ => Option (Option ProviderConfig)
  | appCustomUrlSchemes => List String
  | siteUrl => String
  | discover _ => Except String String
  | signIn _ _ _ _ _ _ => Except AppError SignedIn

abbrev OauthProg := ExceptT AppError (Prog OauthAct OauthAct.Res)

def get (key : String) : OauthProg (Option (Option String)) := ExceptT.lift (Prog.call (OauthAct.get key))

def del (key : String) : OauthProg (Option Unit) := ExceptT.lift (Prog.call (OauthAct.del key))

def appCustomUrlSchemes : OauthProg (List String) := ExceptT.lift (Prog.call OauthAct.appCustomUrlSchemes)

def siteUrl : OauthProg String := ExceptT.lift (Prog.call OauthAct.siteUrl)

def discover (issuer : String) : OauthProg (Except String String) := ExceptT.lift (Prog.call (OauthAct.discover issuer))

def signIn (providerKey : String) (config : ProviderConfig) (code callbackUrl : String)
    (codeVerifier nonce : Option String) : OauthProg (Except AppError SignedIn) :=
  ExceptT.lift (Prog.call (OauthAct.signIn providerKey config code callbackUrl codeVerifier nonce))

def access (act : ExchangeAct) : Prog OauthAct OauthAct.Res act.Res := Prog.call (OauthAct.exchange act)

def exchanging {α : Type} (p : ExchangeProg AppError α) : OauthProg α := ExceptT.mk (p.run.expand access)

def oauthStatePrefix : String := "rustchat:oauth:state:"

def oauthStateTtlSeconds : ℕ := 300

def oauthStateKey (state : String) : String := oauthStatePrefix ++ state

def defaultOauthRedirectPath : String := "/"

def defaultAppCustomUrlSchemes : List String := ["mmauth://", "mmauthbeta://"]

/-- The active configuration of a provider, with the answer if there is none. -/
def activeConfig (providerKey missing : String) : OauthProg ProviderConfig := do
  match ← (ExceptT.lift (Prog.call (OauthAct.config providerKey)) : OauthProg (Option (Option ProviderConfig))) with
  | none => throw .database
  | some none => throw (.notFound missing)
  | some (some config) => pure config

structure Url where
  hostStr : Option String
  path : String
  query : Option String
  fragment : Option String

/-- What is used of other crates. -/
structure Crates where
  -- `URL_SAFE_NO_PAD.encode(Sha256::digest(..))`
  s256 : String → String
  -- `url::Url::parse`
  parseUrl : String → Option Url

/-- `urlencoding::encode`: all bytes are escaped but letters, digits and `-_.~`. -/
def urlencode (text : String) : String :=
  let hexDigit (n : ℕ) : Char := "0123456789ABCDEF".toList.getD n '0'
  String.ofList (text.toUTF8.data.toList.flatMap fun b =>
    let c := Char.ofNat b.toNat
    if c.isAlphanum ∨ c = '-' ∨ c = '_' ∨ c = '.' ∨ c = '~' then [c]
    else ['%', hexDigit (b.toNat / 16), hexDigit (b.toNat % 16)])

/-- Only relative paths are kept. -/
def sanitizeRedirectPath : Option String → String
  | some path =>
    if "/".toList.isPrefixOf path.toList ∧ ¬ "//".toList.isPrefixOf path.toList ∧
        ¬ path.toList.tails.any (fun rest => "..".toList.isPrefixOf rest) ∧ ¬ path.toList.contains (Char.ofNat 0) then path
    else defaultOauthRedirectPath
  | none => defaultOauthRedirectPath

structure OAuthLoginQuery where
  redirectUri : Option String
  redirectTo : Option String
  mobile : Option Bool
  state : Option String
  codeChallenge : Option String
  codeChallengeMethod : Option String

structure OAuthCallbackQuery where
  code : Option String
  state : Option String
  error : Option String
  errorDescription : Option String

structure LoginDrawn where
  oauthState : Uuid
  codeVerifier : String
  nonce : Uuid

structure Redirect where
  location : String
  setCookie : Option String

section Handlers

variable (crates : Crates)

def validateMobileRedirectTo (redirectTo : String) (allowedSchemes : List String) : Except AppError String :=
  let trimmed := trimText redirectTo
  if trimmed = "" then .error (.badRequest "Invalid mobile redirect URL")
  else
    match crates.parseUrl trimmed with
    | none => .error (.badRequest "Invalid mobile redirect URL")
    | some parsed =>
      let effectiveSchemes := if allowedSchemes = [] then defaultAppCustomUrlSchemes else allowedSchemes
      let isAllowedScheme := ((effectiveSchemes.map trimText).filter (· ≠ "")).any fun value =>
        (toAsciiLowercase value).toList.isPrefixOf (toAsciiLowercase trimmed).toList
      if isAllowedScheme = false then .error (.badRequest "Invalid mobile redirect URL scheme")
      else if parsed.hostStr.getD "" ≠ "callback" ∨ parsed.path ≠ "" ∨ parsed.query.isSome ∨ parsed.fragment.isSome then
        .error (.badRequest "Invalid mobile redirect callback host")
      else .ok trimmed

def appendQueryParam (path key value : String) : String :=
  path ++ (if path.toList.contains '?' then "&" else "?") ++ key ++ "=" ++ urlencode value

def callbackUrl (siteUrl providerKey : String) : String := siteUrl ++ "/api/v1/oauth2/" ++ providerKey ++ "/callback"

def statePayload (providerKey : String) (query : OAuthLoginQuery) (drawn : LoginDrawn) (providerType : SsoProviderType)
    (mobileRedirectTo : Option String) (now : Int) : OAuthStatePayload :=
  let usesPkce := match providerType with
    | .gitHub => false
    | _ => true
  { providerKey := providerKey
    redirectAfter := sanitizeRedirectPath query.redirectUri
    createdAt := now
    nonce := if usesPkce then some drawn.nonce.hyphenated else none
    codeVerifier := if usesPkce then some drawn.codeVerifier else none
    codeChallengeMethod := if usesPkce then some "S256" else none
    isMobile := query.mobile.getD false
    mobileSsoState := given query.state
    mobileSsoCodeChallenge := given query.codeChallenge
    mobileSsoCodeChallengeMethod := (given query.codeChallengeMethod).map toAsciiUppercase
    mobileRedirectTo := mobileRedirectTo }

def authorizationUrl (endpoint clientId callback scopes : String) (oauthState : Uuid) : String :=
  endpoint ++ "?client_id=" ++ urlencode clientId ++ "&redirect_uri=" ++ urlencode callback ++
    "&response_type=code&scope=" ++ urlencode scopes ++ "&state=" ++ oauthState.hyphenated

def oidcAuthUrl (clientId callback scopes : String) (config : ProviderConfig) (drawn : LoginDrawn) : OauthProg String :=
  match config.issuerUrl with
  | none => throw (.badRequest "OIDC provider issuer_url not configured")
  | some issuer => do
    match ← discover issuer with
    | .error e => throw (.internal ("OIDC discovery failed for '" ++ issuer ++ "': " ++ e))
    | .ok endpoint => pure (authorizationUrl endpoint clientId callback scopes drawn.oauthState ++
        "&code_challenge=" ++ urlencode (crates.s256 drawn.codeVerifier) ++ "&code_challenge_method=S256" ++
        "&nonce=" ++ urlencode drawn.nonce.hyphenated)

def authUrl (providerKey clientId : String) (config : ProviderConfig) (providerType : SsoProviderType)
    (drawn : LoginDrawn) : OauthProg String := do
  let callback := callbackUrl (← siteUrl) providerKey
  let scopes := " ".intercalate (if config.scopes = [] then providerType.defaultScopes else config.scopes)
  match providerType with
  | .gitHub => pure (authorizationUrl "https://github.com/login/oauth/authorize" clientId callback scopes
      drawn.oauthState)
  | .google => oidcAuthUrl crates clientId callback scopes config drawn
  | .oidc => oidcAuthUrl crates clientId callback scopes config drawn
  | .saml => throw (.badRequest "SAML is not supported via OAuth endpoints")

def mobileRedirectTo (query : OAuthLoginQuery) : OauthProg (Option String) :=
  if query.mobile.getD false then do
    let schemes ← appCustomUrlSchemes
    match query.redirectTo.orElse fun _ => query.redirectUri with
    | none => pure none
    | some redirectTo =>
      match validateMobileRedirectTo crates redirectTo schemes with
      | .error e => throw e
      | .ok validated => pure (some validated)
  else pure none

def storeState (oauthState : Uuid) (payload : OAuthStatePayload) : OauthProg Unit := do
  match ← exchanging connect with
  | none => throw (.internal "Redis connection failed")
  | some _ =>
    match ← exchanging (setEx (oauthStateKey oauthState.hyphenated) payload.serialize oauthStateTtlSeconds) with
    | none => throw (.internal "Failed to store OAuth state")
    | some _ => pure ()

def oauthLogin (providerKey : String) (query : OAuthLoginQuery) (drawn : LoginDrawn) : OauthProg Redirect := do
  let config ← activeConfig providerKey ("OAuth provider '" ++ providerKey ++ "' not found or disabled")
  match config.clientId, SsoProviderType.fromStr config.providerType with
  | none, _ => throw (.badRequest "OAuth provider client_id not configured")
  | _, none => throw (.internal ("Unknown provider type: " ++ config.providerType))
  | some clientId, some providerType => do
    let redirect ← mobileRedirectTo crates query
    let now ← exchanging timestamp
    storeState drawn.oauthState (statePayload providerKey query drawn providerType redirect now)
    let location ← authUrl crates providerKey clientId config providerType drawn
    pure ⟨location, none⟩

/-- The state check of a callback. -/
def consumeState (providerKey oauthState : String) : OauthProg OAuthStatePayload := do
  match ← exchanging connect with
  | none => throw (.internal "Redis connection failed")
  | some _ =>
    match ← get (oauthStateKey oauthState) with
    | none => throw (.internal "Failed to read OAuth state")
    | some storedStateJson =>
      match ← del (oauthStateKey oauthState) with
      | none => throw (.internal "Failed to delete OAuth state")
      | some _ =>
        match storedStateJson with
        | none => throw (.badRequest "Invalid or expired OAuth state")
        | some text =>
          match OAuthStatePayload.deserialize text with
          | none => throw (.internal "Invalid OAuth state payload")
          | some storedState =>
            if storedState.providerKey ≠ providerKey then throw (.badRequest "OAuth state provider mismatch")
            else do
              let now ← exchanging timestamp
              if (oauthStateTtlSeconds : Int) < now - storedState.createdAt then
                throw (.badRequest "OAuth state expired")
              else pure storedState

/-- What the exchange code of a callback is bound to. -/
def ssoChallenge (storedState : OAuthStatePayload) : Option SsoExchangeChallenge :=
  if storedState.isMobile then
    match storedState.mobileSsoState, storedState.mobileSsoCodeChallenge with
    | some expectedState, some codeChallenge =>
      some ⟨expectedState, codeChallenge, storedState.mobileSsoCodeChallengeMethod.getD "S256"⟩
    | _, _ => none
  else none

def createExchangeCode (user : SignedIn) (exchangeCode : String) : ExchangeProg AppError String :=
  createExchangeCodeWithSso user.id user.email user.role user.orgId none exchangeCode

def buildExchangeCodeCookie (exchangeCode : String) (secure : Bool) : String :=
  "RCOAUTHCODE=" ++ exchangeCode ++ "; Path=/; Max-Age=120; HttpOnly; SameSite=Lax" ++ if secure then "; Secure" else ""

def callbackRedirect (production : Bool) (exchangeCode site : String) (storedState : OAuthStatePayload) : Redirect :=
  if storedState.isMobile then
    let base := storedState.mobileRedirectTo.getD "rustchat://callback"
    let withLoginCode := appendQueryParam base "login_code" exchangeCode
    let withLegacyCode := appendQueryParam withLoginCode "code" exchangeCode
    ⟨appendQueryParam withLegacyCode "srv" site, none⟩
  else ⟨appendQueryParam storedState.redirectAfter "oauth" "1",
    some (buildExchangeCodeCookie exchangeCode production)⟩

def completeCallback (production : Bool) (providerKey code exchangeCode : String) (storedState : OAuthStatePayload)
    (config : ProviderConfig) : OauthProg Redirect :=
  match SsoProviderType.fromStr config.providerType, config.clientId, config.clientSecretEncrypted with
  | none, _, _ => throw (.internal ("Unknown provider type: " ++ config.providerType))
  | _, none, _ => throw (.badRequest "OAuth provider client_id not configured")
  | _, _, none => throw (.badRequest "OAuth provider client_secret not configured")
  | some _, some _, some _ => do
    let callback := callbackUrl (← siteUrl) providerKey
    match ← signIn providerKey config code callback storedState.codeVerifier storedState.nonce with
    | .error e => throw e
    | .ok user => do
      let exchangeCode ← exchanging (match ssoChallenge storedState with
        | some challenge =>
          createExchangeCodeWithSso user.id user.email user.role user.orgId (some challenge) exchangeCode
        | none => createExchangeCode user exchangeCode)
      let site ← siteUrl
      pure (callbackRedirect production exchangeCode site storedState)

def finishCallback (production : Bool) (providerKey code exchangeCode : String) (storedState : OAuthStatePayload) :
    OauthProg Redirect := do
  let config ← activeConfig providerKey ("OAuth provider '" ++ providerKey ++ "' not found")
  completeCallback production providerKey code exchangeCode storedState config

/-- `exchangeCode` is what `generate_exchange_code` returns. -/
def oauthCallback (production : Bool) (providerKey : String) (query : OAuthCallbackQuery) (exchangeCode : String) :
    OauthProg Redirect :=
  match query.error with
  | some error => pure ⟨"/login?error=" ++ urlencode (query.errorDescription.getD error), none⟩
  | none =>
    match query.code, query.state with
    | none, _ => throw (.badRequest "Missing authorization code")
    | _, none => throw (.badRequest "Missing OAuth state parameter")
    | some code, some oauthState => do
      let storedState ← consumeState providerKey oauthState
      finishCallback production providerKey code exchangeCode storedState

end Handlers

/-- The state of a login was stored, with `value`. -/
def Issued (es : List (Sigma OauthAct.Res)) (oauthState : Uuid) (value : String) : Prop :=
  ∃ stored : Option Unit,
    ⟨.exchange (.setEx (oauthStateKey oauthState.hyphenated) value oauthStateTtlSeconds), stored⟩ ∈ es

/-- `value` was found under a state. -/
def found (oauthState value : String) : Sigma OauthAct.Res :=
  ⟨.get (oauthStateKey oauthState), (some (some value) : Option (Option String))⟩

/-- An exchange code was stored, with `value`. -/
def made (code value : String) : Sigma OauthAct.Res :=
  ⟨.exchange (.setEx (codeKey code) value oauthCodeTtlSeconds), (some () : Option Unit)⟩

/-- The request has got a token for a code that was stored with `value`. -/
def Redeems (s256 : String → String) (request : Request) (code value : String) : Prop :=
  ∃ es token, (request.run s256).Path es (.ok token) ∧ request.presented = some code ∧
    ∀ v, took code v ∈ es → v = value

def OAuthLoginQuery.Answered (s256 : String → String) (query : OAuthLoginQuery)
    (verification : Option (String × String)) : Prop :=
  ∃ codeVerifier state challenge, verification = some (codeVerifier, state) ∧ query.codeChallenge = some challenge ∧
    computedChallenge s256 (given query.codeChallengeMethod) codeVerifier = some (trimText challenge)

/-- A code that is made of what a login stored is redeemed only with a verifier that comes to its challenge. -/
def Bound (s256 : String → String) (query : OAuthLoginQuery) (oauthState value : String) : Prop :=
  ∀ production providerKey callback exchangeCode es redirect,
    (oauthCallback production providerKey callback exchangeCode).run.Path es (.ok redirect) →
    found oauthState value ∈ es → ∀ code stored, made code stored ∈ es →
    ∀ request, Redeems s256 request code stored → query.Answered s256 request.verification

/-! ### What the programs have performed -/

section Paths

variable {crates : Crates} {es : List (Sigma OauthAct.Res)}

def lifted (x : Sigma ExchangeAct.Res) : Sigma OauthAct.Res := ⟨.exchange x.1, x.2⟩

theorem path_expand_access {α : Type} {p : Prog ExchangeAct ExchangeAct.Res α} {a : α} :
    (p.expand access).Path es a ↔ ∃ es', p.Path es' a ∧ es = es'.map lifted := by
  induction p generalizing es with
  | done b =>
    constructor
    · rintro ⟨rfl, rfl⟩
      exact ⟨[], ⟨rfl, rfl⟩, rfl⟩
    · rintro ⟨es', ⟨rfl, rfl⟩, rfl⟩
      exact ⟨rfl, rfl⟩
  | perform act next ih =>
    constructor
    · rintro ⟨r, es₁, rfl, h⟩
      obtain ⟨es', hp, rfl⟩ := (ih r).1 h
      exact ⟨⟨act, r⟩ :: es', ⟨r, es', rfl, hp⟩, rfl⟩
    · rintro ⟨es', ⟨r, es₁, rfl, hp⟩, rfl⟩
      exact ⟨r, es₁.map lifted, rfl, (ih r).2 ⟨es₁, hp, rfl⟩⟩

theorem path_access {α : Type} {act : ExchangeAct} {f : act.Res → OauthProg α} {r : Except AppError α} :
    (exchanging (ExceptT.lift (Prog.call act)) >>= f).run.Path es r ↔
      ∃ a es', es = ⟨.exchange act, a⟩ :: es' ∧ (f a).run.Path es' r := Iff.rfl

def exchangePayload (user : SignedIn) (challenge : Option SsoExchangeChallenge) (now : Int) : ExchangeCodePayload :=
  ⟨user.id, user.email, user.role, user.orgId, now, challenge.map (·.expectedState), challenge.map (·.codeChallenge),
    challenge.map (·.codeChallengeMethod)⟩

theorem path_createExchangeCodeWithSso {user : SignedIn} {challenge : Option SsoExchangeChallenge} {code c : String}
    {es : List (Sigma ExchangeAct.Res)} :
    (createExchangeCodeWithSso user.id user.email user.role user.orgId challenge code).run.Path es (.ok c) ↔
      c = code ∧ ∃ now, es = [⟨.timestamp, now⟩, ⟨.connect, (some () : Option Unit)⟩, ⟨.setEx (codeKey code)
        (exchangePayload user challenge now).serialize oauthCodeTtlSeconds, (some () : Option Unit)⟩] := by
  constructor
  · intro h
    obtain ⟨now, es₁, rfl, h₁⟩ := Prog.path_run_call.1 h
    obtain ⟨connected, es₂, rfl, h₂⟩ := Prog.path_run_call.1 h₁
    cases connected with
    | none => cases h₂.2
    | some u =>
      obtain ⟨stored, es₃, rfl, h₃⟩ := Prog.path_run_call.1 h₂
      cases stored with
      | none => cases h₃.2
      | some u =>
        obtain ⟨rfl, heq⟩ := h₃
        cases heq
        exact ⟨rfl, now, rfl⟩
  · rintro ⟨rfl, now, rfl⟩
    exact ⟨now, _, rfl, some (), _, rfl, some (), [], rfl, rfl, rfl⟩

theorem path_consumeState {providerKey oauthState : String} {stored : OAuthStatePayload} :
    (consumeState providerKey oauthState).run.Path es (.ok stored) ↔ ∃ (text : String) (now : Int),
      es = [⟨.exchange .connect, (some () : Option Unit)⟩, found oauthState text,
        ⟨.del (oauthStateKey oauthState), (some () : Option Unit)⟩, ⟨.exchange .timestamp, now⟩] ∧
      OAuthStatePayload.deserialize text = some stored ∧ stored.providerKey = providerKey ∧
        now - stored.createdAt ≤ oauthStateTtlSeconds := by
  constructor
  · intro h
    obtain ⟨connected, es₁, rfl, h₁⟩ := path_access.1 h
    cases connected with
    | none => cases h₁.2
    | some u =>
      obtain ⟨json, es₂, rfl, h₂⟩ := Prog.path_run_call.1 h₁
      cases json with
      | none => cases h₂.2
      | some json =>
        obtain ⟨deleted, es₃, rfl, h₃⟩ := Prog.path_run_call.1 h₂
        cases deleted with
        | none => cases h₃.2
        | some u =>
          cases json with
          | none => cases h₃.2
          | some text =>
            dsimp only at h₃
            split at h₃
            · cases h₃.2
            · next stored' hread =>
              split at h₃
              · cases h₃.2
              · next hkey =>
                obtain ⟨now, es₄, rfl, h₄⟩ := path_access.1 h₃
                split at h₄
                · cases h₄.2
                · next hage =>
                  obtain ⟨rfl, heq⟩ := h₄
                  cases heq
                  exact ⟨text, now, rfl, hread, not_not.1 hkey, not_lt.1 hage⟩
  · rintro ⟨text, now, rfl, hread, hkey, hage⟩
    refine ⟨some (), _, rfl, some (some text), _, rfl, some (), _, rfl, ?_⟩
    dsimp only
    rw [hread]
    dsimp only
    rw [if_neg (not_not.2 hkey)]
    refine path_access.2 ⟨now, [], rfl, ?_⟩
    rw [if_neg (not_lt.2 hage)]
    exact ⟨rfl, rfl⟩

/-- What a callback has performed after the state check, if it makes a code. -/
def finishing (providerKey code exchangeCode : String) (storedState : OAuthStatePayload) (config : ProviderConfig)
    (user : SignedIn) (site site' : String) (now : Int) : List (Sigma OauthAct.Res) :=
  [⟨.config providerKey, (some (some config) : Option (Option ProviderConfig))⟩, ⟨.siteUrl, site⟩,
    ⟨.signIn providerKey config code (callbackUrl site providerKey) storedState.codeVerifier storedState.nonce,
      (.ok user : Except AppError SignedIn)⟩,
    ⟨.exchange .timestamp, now⟩, ⟨.exchange .connect, (some () : Option Unit)⟩,
    made exchangeCode (exchangePayload user (ssoChallenge storedState) now).serialize, ⟨.siteUrl, site'⟩]

theorem createExchangeCode_eq {user : SignedIn} {storedState : OAuthStatePayload} {exchangeCode : String} :
    (match ssoChallenge storedState with
      | some challenge => createExchangeCodeWithSso user.id user.email user.role user.orgId (some challenge) exchangeCode
      | none => createExchangeCode user exchangeCode) =
    createExchangeCodeWithSso user.id user.email user.role user.orgId (ssoChallenge storedState) exchangeCode := by
  cases ssoChallenge storedState with
  | none => rfl
  | some challenge => rfl

section Callback

variable {production : Bool} {providerKey code exchangeCode : String} {storedState : OAuthStatePayload}
    {redirect : Redirect}

theorem path_activeConfig {missing : String} {config : ProviderConfig}
    (h : (activeConfig providerKey missing).run.Path es (.ok config)) :
    es = [⟨.config providerKey, (some (some config) : Option (Option ProviderConfig))⟩] := by
  obtain ⟨row, es₁, rfl, h₁⟩ := Prog.path_run_call.1 h
  rcases row with - | - | config'
  · cases h₁.2
  · cases h₁.2
  · obtain ⟨rfl, heq⟩ := h₁
    cases heq
    rfl

theorem path_finishCallback
    (h : (finishCallback production providerKey code exchangeCode storedState).run.Path es (.ok redirect)) :
    ∃ config user site site' now, es = finishing providerKey code exchangeCode storedState config user site site' now := by
  obtain ⟨config, es₁, es₂, rfl, hconfig, h₁⟩ := (Prog.path_run_bind_ok _ _).1 h
  obtain rfl := path_activeConfig hconfig
  unfold completeCallback at h₁
  split at h₁
  · cases h₁.2
  · cases h₁.2
  · cases h₁.2
  · obtain ⟨site, es₃, rfl, h₂⟩ := Prog.path_run_call.1 h₁
    obtain ⟨signed, es₄, rfl, h₃⟩ := Prog.path_run_call.1 h₂
    cases signed with
    | error e => cases h₃.2
    | ok user =>
      obtain ⟨exchangeCode', es₅, es₆, rfl, hcreate, h₄⟩ := (Prog.path_run_bind_ok _ _).1 h₃
      rw [createExchangeCode_eq] at hcreate
      obtain ⟨es', hcreated, rfl⟩ := path_expand_access.1 hcreate
      obtain ⟨rfl, now, rfl⟩ := path_createExchangeCodeWithSso.1 hcreated
      obtain ⟨site', es₇, rfl, h₅⟩ := Prog.path_run_call.1 h₄
      obtain rfl := h₅.1
      exact ⟨config, user, site, site', now, rfl⟩

theorem exists_finishCallback (config : ProviderConfig) (user : SignedIn) (site site' : String) (now : Int)
    (htype : SsoProviderType.fromStr config.providerType ≠ none) (hclient : config.clientId ≠ none)
    (hsecret : config.clientSecretEncrypted ≠ none) :
    ∃ redirect, (finishCallback production providerKey code exchangeCode storedState).run.Path
      (finishing providerKey code exchangeCode storedState config user site site' now) (.ok redirect) := by
  obtain ⟨providerType, htype⟩ := Option.ne_none_iff_exists'.1 htype
  obtain ⟨clientId, hclient⟩ := Option.ne_none_iff_exists'.1 hclient
  obtain ⟨secret, hsecret⟩ := Option.ne_none_iff_exists'.1 hsecret
  have hcreate : (exchanging (createExchangeCodeWithSso user.id user.email user.role user.orgId (ssoChallenge storedState)
      exchangeCode)).run.Path _ (.ok exchangeCode) :=
    path_expand_access.2 ⟨_, path_createExchangeCodeWithSso.2 ⟨rfl, now, rfl⟩, rfl⟩
  rw [← createExchangeCode_eq] at hcreate
  refine ⟨callbackRedirect production exchangeCode site' storedState, (Prog.path_run_bind_ok _ _).2 ⟨config, [_], _, rfl,
    Prog.path_run_call.2 ⟨some (some config), [], rfl, rfl, rfl⟩, ?_⟩⟩
  rw [completeCallback, htype, hclient, hsecret]
  refine Prog.path_run_call.2 ⟨site, _, rfl, Prog.path_run_call.2 ⟨.ok user, _, rfl, ?_⟩⟩
  exact (Prog.path_run_bind_ok _ _).2 ⟨exchangeCode, _, _, rfl, hcreate,
    Prog.path_run_call.2 ⟨site', [], rfl, rfl, rfl⟩⟩

end Callback

def foundValue : Sigma OauthAct.Res → Option String
  | ⟨.get _, some value⟩ => value
  | _ => none

def storedValue : Sigma OauthAct.Res → Option String
  | ⟨.exchange (.setEx _ value _), _⟩ => some value
  | _ => none

theorem path_oauthCallback {production : Bool} {providerKey exchangeCode : String} {query : OAuthCallbackQuery}
    {redirect : Redirect} {oauthState value code stored : String}
    (h : (oauthCallback production providerKey query exchangeCode).run.Path es (.ok redirect))
    (hfound : found oauthState value ∈ es) (hmade : made code stored ∈ es) :
    ∃ storedState user now, OAuthStatePayload.deserialize value = some storedState ∧
      stored = (exchangePayload user (ssoChallenge storedState) now).serialize := by
  unfold oauthCallback at h
  split at h
  · rw [h.1] at hfound
    cases hfound
  · split at h
    · cases h.2
    · cases h.2
    · obtain ⟨storedState, es₁, es₂, rfl, hconsume, hfinish⟩ := (Prog.path_run_bind_ok _ _).1 h
      obtain ⟨text, now, rfl, hread, -, -⟩ := path_consumeState.1 hconsume
      obtain ⟨config, user, site, site', now', rfl⟩ := path_finishCallback hfinish
      have htext : value ∈ List.filterMap foundValue _ := List.mem_filterMap.2 ⟨_, hfound, rfl⟩
      have hstored : stored ∈ List.filterMap storedValue _ := List.mem_filterMap.2 ⟨_, hmade, rfl⟩
      rw [List.mem_singleton.1 htext, List.mem_singleton.1 hstored]
      exact ⟨storedState, user, now', hread, rfl⟩

def StoresState (providerKey : String) (query : OAuthLoginQuery) (drawn : LoginDrawn) (past : List (Sigma OauthAct.Res))
    (act : OauthAct) : Prop :=
  ∀ key value seconds, act = .exchange (.setEx key value seconds) → seconds = oauthStateTtlSeconds ∧
    ∃ providerType redirect now, value = (statePayload providerKey query drawn providerType redirect now).serialize ∧
      ⟨.exchange .timestamp, now⟩ ∈ past

def OauthAct.Elsewhere : OauthAct → Prop
  | exchange _ | get _ | del _ => False
  | _ => True

section Elsewhere

variable {W : List (Sigma OauthAct.Res) → OauthAct → Prop} (hW : ∀ past act, act.Elsewhere → W past act)
include hW

theorem always_activeConfig {providerKey missing : String} : Prog.Always W (activeConfig providerKey missing) := by
  refine (Prog.always_lift fun past => hW past (.config providerKey) trivial).bind fun row => ?_
  split
  · exact Prog.always_throw _
  · exact Prog.always_throw _
  · exact Prog.always_pure _

theorem always_mobileRedirectTo {query : OAuthLoginQuery} : Prog.Always W (mobileRedirectTo crates query) := by
  unfold mobileRedirectTo
  split
  · refine (Prog.always_lift fun past => hW past .appCustomUrlSchemes trivial).bind fun schemes => ?_
    split
    · exact Prog.always_pure _
    · split
      · exact Prog.always_throw _
      · exact Prog.always_pure _
  · exact Prog.always_pure _

theorem always_oidcAuthUrl {clientId callback scopes : String} {config : ProviderConfig} {drawn : LoginDrawn} :
    Prog.Always W (oidcAuthUrl crates clientId callback scopes config drawn) := by
  unfold oidcAuthUrl
  split
  · exact Prog.always_throw _
  · refine (Prog.always_lift fun past => hW past (.discover _) trivial).bind fun discovered => ?_
    split
    · exact Prog.always_throw _
    · exact Prog.always_pure _

theorem always_authUrl {providerKey clientId : String} {config : ProviderConfig} {providerType : SsoProviderType}
    {drawn : LoginDrawn} : Prog.Always W (authUrl crates providerKey clientId config providerType drawn) := by
  refine (Prog.always_lift fun past => hW past .siteUrl trivial).bind fun site => ?_
  cases providerType with
  | gitHub => exact Prog.always_pure _
  | google => exact always_oidcAuthUrl hW
  | oidc => exact always_oidcAuthUrl hW
  | saml => exact Prog.always_throw _

end Elsewhere

section Login

variable {providerKey : String} {query : OAuthLoginQuery} {drawn : LoginDrawn}

theorem storesState_elsewhere (past : List (Sigma OauthAct.Res)) (act : OauthAct) (h : act.Elsewhere) :
    StoresState providerKey query drawn past act := by
  rintro key value seconds rfl
  exact h.elim

theorem follows_oauthLogin :
    (oauthLogin crates providerKey query drawn).run.Follows (StoresState providerKey query drawn) [] := by
  refine (Prog.follows_run_bind _ _).2 ⟨always_activeConfig storesState_elsewhere [], fun es config _ => ?_⟩
  split
  · trivial
  · trivial
  · next clientId providerType hclient htype =>
    refine (Prog.follows_run_bind _ _).2 ⟨always_mobileRedirectTo storesState_elsewhere _, fun es' redirect _ => ?_⟩
    refine ⟨nofun, fun now => ?_⟩
    have hpast : ⟨.exchange .timestamp, now⟩ ∈ [] ++ es ++ es' ++ [(⟨.exchange .timestamp, now⟩ : Sigma OauthAct.Res)] :=
      List.mem_append_right _ List.mem_cons_self
    refine (Prog.follows_run_bind _ _).2 ⟨?_, fun _ _ _ =>
      (always_authUrl storesState_elsewhere).bind (fun _ => Prog.always_pure _) _⟩
    refine ⟨nofun, fun connected => ?_⟩
    cases connected with
    | none => trivial
    | some u =>
      refine ⟨fun key value seconds heq => ?_, fun stored => ?_⟩
      · cases heq
        exact ⟨rfl, providerType, redirect, now, rfl, List.mem_append_left _ hpast⟩
      · cases stored with
        | none => trivial
        | some u => trivial

end Login

end Paths

/-! ### Bound codes -/

section Bound

variable {crates : Crates} {s256 : String → String} {query : OAuthLoginQuery}

theorem toUpper_idem (c : Char) : c.toUpper.toUpper = c.toUpper := by
  by_cases h : 'a'.val ≤ c.val ∧ c.val ≤ 'z'.val
  · have hval : c.toUpper.val = c.val + ('A'.val - 'a'.val) := by rw [Char.toUpper.eq_def, dif_pos h]
    have hnot : ¬ ('a'.val ≤ c.toUpper.val ∧ c.toUpper.val ≤ 'z'.val) := by
      rw [hval]
      simp only [UInt32.le_iff_toNat_le, UInt32.toNat_add] at h ⊢
      simp at h ⊢
      omega
    rw [Char.toUpper.eq_def c.toUpper, dif_neg hnot]
  · have hself : c.toUpper = c := by rw [Char.toUpper.eq_def, dif_neg h]
    rw [hself, hself]

theorem toAsciiUppercase_idem (text : String) : toAsciiUppercase (toAsciiUppercase text) = toAsciiUppercase text := by
  unfold toAsciiUppercase
  rw [String.toList_ofList, List.map_map]
  exact congrArg String.ofList (List.map_congr_left fun c _ => toUpper_idem c)

theorem computedChallenge_kept {s256 : String → String} (method : Option String) (codeVerifier : String) :
    computedChallenge s256 (some ((method.map toAsciiUppercase).getD "S256")) codeVerifier =
      computedChallenge s256 method codeVerifier := by
  cases method with
  | none => rfl
  | some method =>
    unfold computedChallenge
    have hidem := toAsciiUppercase_idem method
    unfold toAsciiUppercase at hidem
    rw [Option.map_some, Option.getD_some, Option.getD_some, toAsciiUppercase, hidem, Option.getD_some]

/-- What the code of a mobile login is bound to. -/
def OAuthLoginQuery.ssoChallenge (query : OAuthLoginQuery) : Option SsoExchangeChallenge :=
  (given query.state).bind fun state => (given query.codeChallenge).map fun challenge =>
    ⟨state, challenge, ((given query.codeChallengeMethod).map toAsciiUppercase).getD "S256"⟩

theorem isSome_ssoChallenge : query.ssoChallenge.isSome = true ↔
    (given query.state).isSome = true ∧ (given query.codeChallenge).isSome = true := by
  unfold OAuthLoginQuery.ssoChallenge
  cases given query.state with
  | none => simp
  | some state => simp

theorem ssoChallenge_statePayload {providerKey : String} {drawn : LoginDrawn} {providerType : SsoProviderType}
    {redirect : Option String} {now : Int} (hmobile : query.mobile = some true) :
    ssoChallenge (statePayload providerKey query drawn providerType redirect now) = query.ssoChallenge := by
  have hkept : (statePayload providerKey query drawn providerType redirect now).isMobile = true := by
    show query.mobile.getD false = true
    rw [hmobile, Option.getD_some]
  rw [ssoChallenge, if_pos hkept, OAuthLoginQuery.ssoChallenge]
  show (match given query.state, given query.codeChallenge with
    | some expectedState, some codeChallenge => some (SsoExchangeChallenge.mk expectedState codeChallenge
        (((given query.codeChallengeMethod).map toAsciiUppercase).getD "S256"))
    | _, _ => none) = _
  cases given query.state with
  | none => rfl
  | some state =>
    cases given query.codeChallenge with
    | none => rfl
    | some challenge => rfl

theorem redeems_unbound {payload : ExchangeCodePayload} (hunbound : payload.requiresVerification = false)
    (hnow : payload.createdAt = 0) :
    Redeems s256 (.exchangeToken ⟨some "0123456789", none⟩) "0123456789" payload.serialize := by
  have hpresented : (⟨some "0123456789", none⟩ : ExchangeRequest).presented = some "0123456789" := by decide
  have hread : ExchangeCodePayload.deserialize payload.serialize = some payload := by
    rw [payload.deserialize_serialize, hnow]
    rfl
  have hverify : verifySsoMetadata s256 payload none = .ok () := by
    unfold verifySsoMetadata
    exact if_neg (by rw [hunbound]; exact Bool.false_ne_true)
  let es : List (Sigma ExchangeAct.Res) := [⟨.connect, (some () : Option Unit)⟩, took "0123456789" payload.serialize,
    ⟨.timestamp, (0 : Int)⟩]
  have hexchange : (exchangeCode s256 "0123456789").run.Path es (.ok payload) := by
    refine Prog.path_run_call.2 ⟨some (), _, rfl, Prog.path_run_call.2 ⟨some (some payload.serialize), _, rfl, ?_⟩⟩
    dsimp only
    rw [hread]
    refine Prog.path_run_call.2 ⟨(0 : Int), [], rfl, ?_⟩
    rw [hnow, if_neg (by decide), hverify]
    exact ⟨rfl, rfl⟩
  refine ⟨es ++ [⟨.createToken payload, (.ok "token" : Except String String)⟩], "token", ?_, hpresented, fun v hv => ?_⟩
  · show (exchangeToken s256 _).run.Path _ _
    rw [exchangeToken, hpresented]
    dsimp only
    rw [if_neg (by decide)]
    refine (Prog.path_run_bind_ok _ _).2 ⟨payload, es, _, rfl, (Prog.path_run_adapt _).2 ⟨.ok payload, rfl, hexchange⟩, ?_⟩
    exact (Prog.path_run_bind_ok _ _).2 ⟨.ok "token", _, [], rfl, Prog.path_run_call.2 ⟨.ok "token", [], rfl, rfl, rfl⟩,
      rfl, rfl⟩
  · simp only [es, List.mem_append, List.mem_cons, List.not_mem_nil, or_false] at hv
    have hact {x : Sigma ExchangeAct.Res} (h : took "0123456789" v = x) : .take (codeKey "0123456789") = x.1 :=
      congrArg Sigma.fst h
    rcases hv with (hv | hv | hv) | hv
    · exact nomatch hact hv
    · exact took_inj hv
    · exact nomatch hact hv
    · exact nomatch hact hv

theorem answered_of_redeems {s256 : String → String} {payload : ExchangeCodePayload} {request : Request} {code : String}
    {state challenge method : String} (hstate : payload.expectedState = some state)
    (hchallenge : payload.codeChallenge = some challenge) (hmethod : payload.codeChallengeMethod = some method)
    (h : Redeems s256 request code payload.serialize) : ∃ codeVerifier, request.verification = some (codeVerifier, state) ∧
      computedChallenge s256 (some method) codeVerifier = some challenge := by
  obtain ⟨es, token, hpath, hcode, htakes⟩ := h
  obtain ⟨stored, payload', htook, hread, hentitled, -⟩ := (path_request hpath hcode).1 token rfl
  rw [htakes stored htook] at hread
  obtain rfl := ExchangeCodePayload.eq_of_deserialize hread
  have hrequired : payload.requiresVerification = true := by
    rw [ExchangeCodePayload.requiresVerification, hstate]
    rfl
  obtain ⟨codeVerifier, state', challenge', hverification, hstate', hchallenge', hcomputed⟩ := hentitled hrequired
  rw [hstate, Option.some.injEq] at hstate'
  rw [hchallenge, Option.some.injEq] at hchallenge'
  subst hstate' hchallenge'
  rw [hmethod] at hcomputed
  exact ⟨codeVerifier, hverification, hcomputed⟩

/-- A callback can make a code of what a login stored without a challenge, and everybody who has it can redeem it. -/
theorem exists_unbound (s256 : String → String) {oauthState value : String} {storedState : OAuthStatePayload}
    (hread : OAuthStatePayload.deserialize value = some storedState) (hnone : ssoChallenge storedState = none) :
    ∃ es redirect stored, (oauthCallback false storedState.providerKey ⟨some "", some oauthState, none, none⟩
        "0123456789").run.Path es (.ok redirect) ∧ found oauthState value ∈ es ∧ made "0123456789" stored ∈ es ∧
      Redeems s256 (.exchangeToken ⟨some "0123456789", none⟩) "0123456789" stored := by
  let config : ProviderConfig := ⟨some "", "github", some "", none, []⟩
  let user : SignedIn := ⟨0, "", "", none⟩
  have hfinish : ∃ redirect, (finishCallback false storedState.providerKey "" "0123456789" storedState).run.Path _
      (.ok redirect) :=
    exists_finishCallback config user "" "" 0 (by simp [config, SsoProviderType.fromStr]) (by simp [config])
      (by simp [config])
  obtain ⟨redirect, hfinish⟩ := hfinish
  have hconsume : (consumeState storedState.providerKey oauthState).run.Path _ (.ok storedState) :=
    path_consumeState.2 ⟨value, storedState.createdAt, rfl, hread, rfl, by simp⟩
  refine ⟨_, redirect, (exchangePayload user (ssoChallenge storedState) 0).serialize,
    (Prog.path_run_bind_ok _ _).2 ⟨storedState, _, _, rfl, hconsume, hfinish⟩, ?_, ?_, redeems_unbound ?_ rfl⟩
  · simp
  · simp [finishing]
  · rw [hnone]
    rfl

theorem given_eq_some {text given' : String} (h : given (some text) = some given') : given' = trimText text :=
  (Option.some.inj (Option.filter_eq_some_iff.1 h).1).symm

theorem exists_stored {providerKey : String} {drawn : LoginDrawn} {es : List (Sigma OauthAct.Res)}
    {answer : Except AppError Redirect} {value : String}
    (hlogin : (oauthLogin crates providerKey query drawn).run.Path es answer) (hissued : Issued es drawn.oauthState value)
    (hclock : ∀ now, ⟨.exchange .timestamp, now⟩ ∈ es → (Json.asInt 64 (.num now)).isSome)
    (hmobile : query.mobile = some true) : ∃ storedState, OAuthStatePayload.deserialize value = some storedState ∧
      Oauth.ssoChallenge storedState = query.ssoChallenge := by
  obtain ⟨stored, hissued⟩ := hissued
  obtain ⟨older, newer, rfl, hstores⟩ := follows_oauthLogin.path hlogin hissued
  obtain ⟨-, providerType, redirect, now, rfl, hnow⟩ := hstores _ _ _ rfl
  obtain ⟨n, hn⟩ := Option.isSome_iff_exists.1 (hclock now (List.mem_append_left _ hnow))
  refine ⟨statePayload providerKey query drawn providerType redirect now, ?_, ssoChallenge_statePayload hmobile⟩
  have hcreated : (statePayload providerKey query drawn providerType redirect now).createdAt = now := rfl
  rw [OAuthStatePayload.deserialize_serialize, hcreated, hn]
  rfl

theorem bound_iff_isSome {oauthState value challenge : String} {storedState : OAuthStatePayload}
    (hread : OAuthStatePayload.deserialize value = some storedState)
    (hbound : Oauth.ssoChallenge storedState = query.ssoChallenge) (hchallenge : query.codeChallenge = some challenge) :
    Bound s256 query oauthState value ↔ query.ssoChallenge.isSome = true := by
  constructor
  · intro h
    by_contra hnone
    rw [Option.not_isSome_iff_eq_none] at hnone
    obtain ⟨es, redirect, code, hcallback, hfound, hmade, hredeems⟩ :=
      exists_unbound s256 hread (hbound.trans hnone)
    obtain ⟨codeVerifier, state, challenge', hverification, -⟩ :=
      h _ _ _ _ _ _ hcallback hfound _ _ hmade _ hredeems
    cases hverification
  · intro hsome production providerKey callback exchangeCode es redirect hcallback hfound code stored hmade request hredeems
    obtain ⟨hstate, hgiven⟩ := isSome_ssoChallenge.1 hsome
    obtain ⟨state, hstate⟩ := Option.isSome_iff_exists.1 hstate
    obtain ⟨challenge', hgiven⟩ := Option.isSome_iff_exists.1 hgiven
    obtain ⟨storedState', user, now, hread', rfl⟩ := path_oauthCallback hcallback hfound hmade
    obtain rfl := Option.some.inj (hread.symm.trans hread')
    rw [hbound, OAuthLoginQuery.ssoChallenge, hstate, hgiven] at hredeems
    obtain ⟨codeVerifier, hverification, hcomputed⟩ := answered_of_redeems rfl rfl rfl hredeems
    rw [computedChallenge_kept] at hcomputed
    rw [hchallenge] at hgiven
    rw [given_eq_some hgiven] at hcomputed
    exact ⟨codeVerifier, state, challenge, hverification, hchallenge, hcomputed⟩

/-- The code of a mobile login with a challenge is redeemed only with a verifier that comes to it, if and only if neither
the state nor the challenge is blank. -/
theorem bound_iff (crates : Crates) (providerKey : String) (query : OAuthLoginQuery) (drawn : LoginDrawn)
    (es : List (Sigma OauthAct.Res)) (answer : Except AppError Redirect) (value challenge : String)
    (hlogin : (oauthLogin crates providerKey query drawn).run.Path es answer) (hissued : Issued es drawn.oauthState value)
    (hclock : ∀ now, ⟨.exchange .timestamp, now⟩ ∈ es → (Json.asInt 64 (.num now)).isSome)
    (hmobile : query.mobile = some true) (hchallenge : query.codeChallenge = some challenge) :
    Bound crates.s256 query drawn.oauthState.hyphenated value ↔
      (given query.state).isSome = true ∧ (given query.codeChallenge).isSome = true := by
  obtain ⟨storedState, hread, hbound⟩ := exists_stored hlogin hissued hclock hmobile
  exact (bound_iff_isSome hread hbound hchallenge).trans isSome_ssoChallenge

/-- The login of a mobile app, with the challenge of the verifier `v`. -/
def mobileQuery (state : Option String) : OAuthLoginQuery :=
  ⟨none, none, some true, state, some "TJRIXgwhrmxBzh3-e2v6zupato5AokdvUCCOUm9QYIA", none⟩

def mobileDrawn : LoginDrawn := ⟨0, "", 1⟩

theorem exists_mobileLogin (crates : Crates) (state : Option String) : ∃ es answer value,
    (oauthLogin crates "github" (mobileQuery state) mobileDrawn).run.Path es answer ∧
      Issued es mobileDrawn.oauthState value ∧
      ∀ now, ⟨.exchange .timestamp, now⟩ ∈ es → (Json.asInt 64 (.num now)).isSome := by
  let config : ProviderConfig := ⟨some "client", "github", some "secret", none, []⟩
  let payload := statePayload "github" (mobileQuery state) mobileDrawn .gitHub none 0
  let answer : Redirect := ⟨authorizationUrl "https://github.com/login/oauth/authorize" "client"
    (callbackUrl "https://chat" "github") (" ".intercalate SsoProviderType.gitHub.defaultScopes) 0, none⟩
  let es : List (Sigma OauthAct.Res) := [⟨.config "github", (some (some config) : Option (Option ProviderConfig))⟩,
    ⟨.appCustomUrlSchemes, defaultAppCustomUrlSchemes⟩, ⟨.exchange .timestamp, (0 : Int)⟩,
    ⟨.exchange .connect, (some () : Option Unit)⟩,
    ⟨.exchange (.setEx (oauthStateKey mobileDrawn.oauthState.hyphenated) payload.serialize oauthStateTtlSeconds),
      (some () : Option Unit)⟩, ⟨.siteUrl, "https://chat"⟩]
  refine ⟨es, .ok answer, payload.serialize, ?_, ⟨some (), by simp [es]⟩, fun now hnow => ?_⟩
  · exact ⟨some (some config), _, rfl, defaultAppCustomUrlSchemes, _, rfl, (0 : Int), _, rfl, some (), _, rfl, some (), _,
      rfl, "https://chat", [], rfl, rfl, rfl⟩
  · have hzero : now ∈ List.filterMap (fun x => match x with
      | ⟨.exchange .timestamp, now⟩ => some now
      | _ => none) es := List.mem_filterMap.2 ⟨_, hnow, rfl⟩
    rw [List.mem_singleton.1 hzero]
    rfl

/-- For the hash of the verifier `v`. -/
def cratesV : Crates := ⟨challengeV, fun _ => none⟩

/-- With a state of the app the code is bound. -/
theorem bound_mobileQuery : ∃ value, Bound challengeV (mobileQuery (some "s")) mobileDrawn.oauthState.hyphenated value ↔
    (given (some "s")).isSome = true ∧ (given (mobileQuery (some "s")).codeChallenge).isSome = true := by
  obtain ⟨es, answer, value, hlogin, hissued, hclock⟩ := exists_mobileLogin cratesV (some "s")
  exact ⟨value, bound_iff cratesV "github" (mobileQuery (some "s")) mobileDrawn es answer value
    "TJRIXgwhrmxBzh3-e2v6zupato5AokdvUCCOUm9QYIA" hlogin hissued hclock rfl rfl⟩

/-- Without one it is not. -/
theorem exists_not_bound : ∃ es answer value, (oauthLogin cratesV "github" (mobileQuery none) mobileDrawn).run.Path es answer ∧
    Issued es mobileDrawn.oauthState value ∧
      ¬ Bound challengeV (mobileQuery none) mobileDrawn.oauthState.hyphenated value := by
  obtain ⟨es, answer, value, hlogin, hissued, hclock⟩ := exists_mobileLogin cratesV none
  obtain ⟨storedState, hread, hbound⟩ := exists_stored hlogin hissued hclock rfl
  refine ⟨es, answer, value, hlogin, hissued, fun h => ?_⟩
  have hsome := (bound_iff_isSome hread hbound rfl).1 h
  exact absurd (isSome_ssoChallenge.1 hsome).1 Bool.false_ne_true

end Bound

end Oauth

end Rustchat
