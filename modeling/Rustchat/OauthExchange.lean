import Rustchat.ClusterBroadcast
import Rustchat.EmailAccounts
import Rustchat.Lib.Prog

/-!
# Exchange codes of OAuth logins (`services/oauth_token_exchange.rs`, `api/oauth.rs`, `api/v4/users/auth.rs`)

After an OAuth callback the server keeps who has logged in under a random code in Redis, for a minute. A request that
presents the code takes it out with one script and gets a session token; a code that is bound to a mobile login only
with the state and the code verifier of that login. `Oauth.path_request` says what a request has done that ends with a
token, or fails the checks; `OauthRedemptions` says what holds of all requests together.
-/

namespace Rustchat

namespace Oauth

structure ExchangeCodePayload where
  userId : Uuid
  email : String
  role : String
  orgId : Option Uuid
  createdAt : Int
  expectedState : Option String
  codeChallenge : Option String
  codeChallengeMethod : Option String

structure SsoExchangeChallenge where
  expectedState : String
  codeChallenge : String
  codeChallengeMethod : String

namespace ExchangeCodePayload

def toJson (p : ExchangeCodePayload) : Json :=
  .obj [("user_id", .str p.userId.hyphenated), ("email", .str p.email), ("role", .str p.role),
    ("org_id", optUuidJson p.orgId), ("created_at", .num p.createdAt), ("expected_state", .ofOpt .str p.expectedState),
    ("code_challenge", .ofOpt .str p.codeChallenge), ("code_challenge_method", .ofOpt .str p.codeChallengeMethod)]

def ofJson (v : Json) : Option ExchangeCodePayload := do
  let userId ← v.field "user_id" (uuidOfJson Uuid.ofHyphenated)
  let email ← v.field "email" Json.asStr
  let role ← v.field "role" Json.asStr
  let orgId ← v.optField "org_id" (uuidOfJson Uuid.ofHyphenated)
  let createdAt ← v.field "created_at" (Json.asInt 64)
  let expectedState ← v.optField "expected_state" Json.asStr
  let codeChallenge ← v.optField "code_challenge" Json.asStr
  let codeChallengeMethod ← v.optField "code_challenge_method" Json.asStr
  some ⟨userId, email, role, orgId, createdAt, expectedState, codeChallenge, codeChallengeMethod⟩

/-- `serde_json::to_string` -/
def serialize (p : ExchangeCodePayload) : String := p.toJson.render

/-- `serde_json::from_str` -/
def deserialize (text : String) : Option ExchangeCodePayload := (Json.parse text).bind ofJson

theorem optField_ofOpt {v : Json} {key : String} (o : Option String) (h : v.get? key = some (.ofOpt .str o)) :
    v.optField key Json.asStr = some o := by
  cases o with
  | none => exact optField_of_null h
  | some s => exact optField_of_read h nofun rfl

section Fields

variable (p : ExchangeCodePayload)

theorem field_userId : p.toJson.field "user_id" (uuidOfJson Uuid.ofHyphenated) = some p.userId := by
  have hget : p.toJson.get? "user_id" = some (.str p.userId.hyphenated) :=
    by simp [toJson, Json.get?]
  rw [Json.field, hget, Option.bind_some, uuidOfJson, Json.asStr, Option.bind_some,
    Uuid.ofHyphenated_hyphenated]

theorem field_email : p.toJson.field "email" Json.asStr = some p.email := by
  simp [Json.field, toJson, Json.get?, List.lookup_cons, Json.asStr]

theorem field_role : p.toJson.field "role" Json.asStr = some p.role := by
  simp [Json.field, toJson, Json.get?, List.lookup_cons, Json.asStr]

theorem optField_orgId : p.toJson.optField "org_id" (uuidOfJson Uuid.ofHyphenated) = some p.orgId :=
  optField_optUuid Uuid.ofHyphenated_hyphenated p.orgId (by simp [toJson, Json.get?, List.lookup_cons])

theorem field_createdAt : p.toJson.field "created_at" (Json.asInt 64) = Json.asInt 64 (.num p.createdAt) := by
  simp [Json.field, toJson, Json.get?, List.lookup_cons]

theorem optField_expectedState : p.toJson.optField "expected_state" Json.asStr = some p.expectedState :=
  optField_ofOpt p.expectedState (by simp [toJson, Json.get?, List.lookup_cons])

theorem optField_codeChallenge : p.toJson.optField "code_challenge" Json.asStr = some p.codeChallenge :=
  optField_ofOpt p.codeChallenge (by simp [toJson, Json.get?, List.lookup_cons])

theorem optField_codeChallengeMethod :
    p.toJson.optField "code_challenge_method" Json.asStr = some p.codeChallengeMethod :=
  optField_ofOpt p.codeChallengeMethod (by simp [toJson, Json.get?, List.lookup_cons])

end Fields

theorem deserialize_serialize (p : ExchangeCodePayload) :
    deserialize p.serialize = (Json.asInt 64 (.num p.createdAt)).map fun _ => p := by
  rw [deserialize, serialize, Json.parse_render, Option.bind_some, ofJson, field_userId, field_email, field_role,
    optField_orgId, field_createdAt, optField_expectedState, optField_codeChallenge, optField_codeChallengeMethod,
    Json.asInt]
  split
  · rfl
  · rfl

theorem eq_of_deserialize {p q : ExchangeCodePayload} (h : deserialize p.serialize = some q) : p = q := by
  rw [deserialize_serialize] at h
  obtain ⟨_, -, heq⟩ := Option.map_eq_some_iff.1 h
  exact heq

end ExchangeCodePayload

inductive ExchangeError
  | invalidCode
  | codeExpired
  | ssoVerificationRequired
  | stateMismatch
  | challengeMismatch
  | unsupportedChallengeMethod
  -- the text is only logged
  | internal

inductive ExchangeAct
  -- `redis.get()`
  | connect
  | setEx (key value : String) (seconds : ℕ)
  -- the script that gets a value and deletes the key
  | take (key : String)
  -- `chrono::Utc::now().timestamp()`
  | timestamp
  | createToken (payload : ExchangeCodePayload)

def ExchangeAct.Res : ExchangeAct → Type
  | connect => Option Unit
  | setEx _ _ _ => Option Unit
  | take _ => Option (Option String)
  | timestamp => Int
  | createToken _ => Except String String

/-- What an access to Redis meets: it is carried out, refused, or carried out without an answer. -/
inductive CommandFate
  | answered
  | refused
  | unanswered
deriving DecidableEq

def CommandFate.answer {α : Type} (fate : CommandFate) (a : α) : Option α :=
  if fate = .answered then some a else none

theorem CommandFate.answer_eq_some {α : Type} {fate : CommandFate} {a b : α} :
    fate.answer a = some b ↔ fate = .answered ∧ b = a := by
  unfold answer
  split
  · next h => exact ⟨fun hb => ⟨h, (Option.some.inj hb).symm⟩, fun hb => by rw [hb.2]⟩
  · next h => exact ⟨fun hb => (by cases hb), fun hb => absurd hb.1 h⟩

/-- The keys `rustchat:oauth:code:{code}` with their values and the millisecond until which they live, and the clock. -/
structure ExchangeStore where
  codes : Assoc String (String × ℕ)
  now : ℕ

namespace ExchangeStore

def live (s : ExchangeStore) (key : String) : Option String :=
  match s.codes.lookup key with
  | some (value, expiry) => if s.now ≤ expiry then some value else none
  | none => none

theorem live_eq_some {s : ExchangeStore} {key value : String} :
    s.live key = some value ↔ ∃ expiry, s.codes.lookup key = some (value, expiry) ∧ s.now ≤ expiry := by
  unfold live
  constructor
  · intro h
    split at h
    · next hl =>
      split at h
      · next hle =>
        cases h
        exact ⟨_, hl, hle⟩
      · cases h
    · cases h
  · rintro ⟨expiry, hl, hle⟩
    rw [hl]
    exact if_pos hle

/-- What a step meets: the time that has passed, how Redis answers, and what signing a token returns. -/
structure Meets where
  elapsed : ℕ
  fate : CommandFate
  signed : Except String String

def perform (o : Meets) (act : ExchangeAct) (s : ExchangeStore) : act.Res × ExchangeStore :=
  let s := { s with now := s.now + o.elapsed }
  match act with
  | .connect => (o.fate.answer (), s)
  | .setEx key value seconds =>
    (o.fate.answer (), if o.fate = .refused then s
      else { s with codes := s.codes.insert key (value, s.now + seconds * 1000) })
  | .take key =>
    (o.fate.answer (s.live key), if o.fate = .refused then s else { s with codes := s.codes.erase key })
  | .timestamp => (((s.now / 1000 : ℕ) : Int), s)
  | .createToken _ => (o.signed, s)

end ExchangeStore

abbrev ExchangeProg (ε : Type) := ExceptT ε (Prog ExchangeAct ExchangeAct.Res)

section Accesses

variable {ε : Type}

def connect : ExchangeProg ε (Option Unit) := ExceptT.lift (Prog.call ExchangeAct.connect)

def setEx (key value : String) (seconds : ℕ) : ExchangeProg ε (Option Unit) :=
  ExceptT.lift (Prog.call (ExchangeAct.setEx key value seconds))

def take (key : String) : ExchangeProg ε (Option (Option String)) :=
  ExceptT.lift (Prog.call (ExchangeAct.take key))

def timestamp : ExchangeProg ε Int := ExceptT.lift (Prog.call ExchangeAct.timestamp)

def sign (payload : ExchangeCodePayload) : ExchangeProg ε (Except String String) :=
  ExceptT.lift (Prog.call (ExchangeAct.createToken payload))

end Accesses

def oauthCodePrefix : String := "rustchat:oauth:code:"

def oauthCodeTtlSeconds : ℕ := 60

def codeKey (code : String) : String := oauthCodePrefix ++ code

def createExchangeCodeWithSso (userId : Uuid) (email role : String) (orgId : Option Uuid)
    (ssoChallenge : Option SsoExchangeChallenge) (code : String) : ExchangeProg AppError String := do
  let now ← timestamp
  let payload : ExchangeCodePayload := ⟨userId, email, role, orgId, now, ssoChallenge.map (·.expectedState),
    ssoChallenge.map (·.codeChallenge), ssoChallenge.map (·.codeChallengeMethod)⟩
  match ← connect with
  | none => throw (.internal "Redis connection failed")
  | some _ =>
    match ← setEx (codeKey code) payload.serialize oauthCodeTtlSeconds with
    | none => throw (.internal "Failed to store exchange code")
    | some _ => pure code

section Verification

-- `URL_SAFE_NO_PAD.encode(Sha256::digest(..))`
variable (s256 : String → String)

/-- The code challenge that a verifier comes to, for the methods that are supported. -/
def computedChallenge (codeChallengeMethod : Option String) (codeVerifier : String) : Option String :=
  let method := String.ofList ((codeChallengeMethod.getD "S256").toList.map Char.toUpper)
  if method = "S256" then some (s256 codeVerifier)
  else if method = "" then some codeVerifier
  else none

def ExchangeCodePayload.requiresVerification (payload : ExchangeCodePayload) : Bool :=
  payload.expectedState.isSome || payload.codeChallenge.isSome || payload.codeChallengeMethod.isSome

def verifySsoMetadata (payload : ExchangeCodePayload) (verification : Option (String × String)) :
    Except ExchangeError Unit :=
  if payload.requiresVerification then
    match payload.expectedState, payload.codeChallenge, verification with
    | none, _, _ => .error .invalidCode
    | _, none, _ => .error .invalidCode
    | _, _, none => .error .ssoVerificationRequired
    | some expectedState, some codeChallenge, some (codeVerifier, state) =>
      if state ≠ expectedState then .error .stateMismatch
      else
        match computedChallenge s256 payload.codeChallengeMethod codeVerifier with
        | none => .error .unsupportedChallengeMethod
        | some challenge => if challenge ≠ codeChallenge then .error .challengeMismatch else .ok ()
  else .ok ()

/-- What is done with the payload of a code that has been taken out. -/
def checkStored (verification : Option (String × String)) (payload : ExchangeCodePayload) :
    ExchangeProg ExchangeError ExchangeCodePayload := do
  let now ← timestamp
  if (oauthCodeTtlSeconds : Int) < now - payload.createdAt then throw .codeExpired
  else
    match verifySsoMetadata s256 payload verification with
    | .error e => throw e
    | .ok () => pure payload

def exchangeCodeInternal (code : String) (verification : Option (String × String)) :
    ExchangeProg ExchangeError ExchangeCodePayload := do
  match ← connect with
  | none => throw .internal
  | some _ =>
    match ← take (codeKey code) with
    | none => throw .internal
    | some none => throw .invalidCode
    | some (some stored) =>
      match ExchangeCodePayload.deserialize stored with
      | none => throw .internal
      | some payload => checkStored s256 verification payload

def exchangeCode (code : String) : ExchangeProg ExchangeError ExchangeCodePayload :=
  exchangeCodeInternal s256 code none

def exchangeCodeWithSsoVerification (code codeVerifier state : String) :
    ExchangeProg ExchangeError ExchangeCodePayload :=
  exchangeCodeInternal s256 code (some (codeVerifier, state))

end Verification

/-- What the handlers make of an error of the exchange; `required` is their text for a code that is bound to a login. -/
def ExchangeError.toAppError (required failed : String) : ExchangeError → AppError
  | invalidCode => .badRequest "Invalid or already used exchange code"
  | codeExpired => .badRequest "Exchange code has expired"
  | ssoVerificationRequired => .badRequest required
  | stateMismatch => .badRequest "SSO state mismatch"
  | challengeMismatch => .badRequest "SSO challenge mismatch"
  | unsupportedChallengeMethod => .badRequest "Unsupported SSO challenge method"
  | internal => .internal failed

/-- `create_token_with_policy`, with the text of its internal error. -/
def createTokenWithPolicy (payload : ExchangeCodePayload) : ExchangeProg AppError (Except String String) := do
  match ← sign payload with
  | .ok token => pure (.ok token)
  | .error e => pure (.error ("Failed to create token: " ++ e))

/-- A field of a request, trimmed; an empty one counts as missing. -/
def given (field : Option String) : Option String := (field.map trimText).filter (· ≠ "")

/-- `cookie` is the exchange code cookie, if the request has one. -/
structure ExchangeRequest where
  code : Option String
  cookie : Option String

structure LoginSsoCodeExchangeRequest where
  loginCode : Option String
  codeVerifier : Option String
  state : Option String

def ExchangeRequest.presented (input : ExchangeRequest) : Option String :=
  (given input.code).orElse fun () => input.cookie

section Requests

variable (s256 : String → String)

def exchangeToken (input : ExchangeRequest) : ExchangeProg AppError String :=
  match input.presented with
  | none => throw (.badRequest "Missing exchange code")
  | some code =>
    if code.utf8ByteSize < 10 then throw (.badRequest "Invalid exchange code")
    else do
      let payload ← ExceptT.adapt (ExchangeError.toAppError "Exchange code requires additional SSO verification"
        "Failed to process exchange code") (exchangeCode s256 code)
      match ← createTokenWithPolicy payload with
      | .ok token => pure token
      | .error message => throw (.internal ("Failed to create token: Internal server error: " ++ message))

def loginSsoCodeExchange (mobileSsoCodeExchange : Bool) (input : LoginSsoCodeExchangeRequest) :
    ExchangeProg AppError String :=
  if mobileSsoCodeExchange = false then throw (.badRequest "Mobile SSO code exchange is disabled")
  else
    match given input.loginCode, given input.codeVerifier, given input.state with
    | none, _, _ => throw (.badRequest "Missing login_code")
    | _, none, _ => throw (.badRequest "Missing code_verifier")
    | _, _, none => throw (.badRequest "Missing state")
    | some code, some codeVerifier, some state => do
      let payload ← ExceptT.adapt (ExchangeError.toAppError "Exchange code is missing SSO verification metadata"
        "Failed to process exchange code") (exchangeCodeWithSsoVerification s256 code codeVerifier state)
      match ← createTokenWithPolicy payload with
      | .ok token => pure token
      | .error message => throw (.internal message)

/-- A code is made at the end of an OAuth callback, or presented by a request. -/
inductive Request
  | create (userId : Uuid) (email role : String) (orgId : Option Uuid) (ssoChallenge : Option SsoExchangeChallenge)
    -- what `generate_exchange_code` returns
    (code : String)
  | exchangeToken (input : ExchangeRequest)
  | loginSsoCodeExchange (mobileSsoCodeExchange : Bool) (input : LoginSsoCodeExchangeRequest)

def Request.run : Request → Prog ExchangeAct ExchangeAct.Res (Except AppError String)
  | create userId email role orgId ssoChallenge code =>
    (createExchangeCodeWithSso userId email role orgId ssoChallenge code).run
  | exchangeToken input => (Oauth.exchangeToken s256 input).run
  | loginSsoCodeExchange mobileSsoCodeExchange input => (Oauth.loginSsoCodeExchange s256 mobileSsoCodeExchange input).run

abbrev Requests := Pool ExchangeStore Request ExchangeAct ExchangeAct.Res (Except AppError String)

abbrev Input := Pool.Input Request ExchangeStore.Meets

abbrev Event := Pool.Event ExchangeStore Request ExchangeAct ExchangeAct.Res

abbrev step : Requests → Input → Option Requests :=
  Pool.step (Request.run s256) fun _ => ExchangeStore.perform

def start (now : ℕ) : Requests := Pool.start ⟨∅, now⟩

abbrev trace (now : ℕ) (inputs : List Input) : List Event :=
  Pool.trace (Request.run s256) (fun _ => ExchangeStore.perform) (start now) inputs

end Requests

def Request.presented : Request → Option String
  | create _ _ _ _ _ _ => none
  | exchangeToken input => input.presented
  | loginSsoCodeExchange _ input => given input.loginCode

def Request.verification : Request → Option (String × String)
  | loginSsoCodeExchange _ input => (given input.codeVerifier).bind fun codeVerifier =>
    (given input.state).map fun state => (codeVerifier, state)
  | _ => none

def bindingErrors : List AppError :=
  [.badRequest "Exchange code requires additional SSO verification",
    .badRequest "Exchange code is missing SSO verification metadata", .badRequest "SSO state mismatch",
    .badRequest "SSO challenge mismatch", .badRequest "Unsupported SSO challenge method"]

def Redeemed (requests : Requests) (t : ℕ) (code : String) : Prop :=
  ∃ request token, requests.tasks.lookup t = some ⟨request, .done (.ok token)⟩ ∧ request.presented = some code

/-- The request has failed the binding check of the code. -/
def Rejected (requests : Requests) (t : ℕ) (code : String) : Prop :=
  ∃ request e, requests.tasks.lookup t = some ⟨request, .done (.error e)⟩ ∧ request.presented = some code ∧
    e ∈ bindingErrors

def stores (code : String) (e : Event) : Bool :=
  match e.act with
  | .setEx key _ _ => key = codeKey code
  | _ => false

def takes (code : String) : Event → Option String
  | ⟨_, _, .take key, some (some value), _, _⟩ => if key = codeKey code then some value else none
  | _ => none

/-- A payload without metadata is for everybody; one that is bound is for the state that it names, and for a verifier
that comes to its challenge. -/
def Entitled (s256 : String → String) (payload : ExchangeCodePayload)
    (verification : Option (String × String)) : Prop :=
  payload.requiresVerification = true → ∃ codeVerifier state challenge, verification = some (codeVerifier, state) ∧
    payload.expectedState = some state ∧ payload.codeChallenge = some challenge ∧
      computedChallenge s256 payload.codeChallengeMethod codeVerifier = some challenge

structure Redemption (s256 : String → String) (events : List Event) (requests : Requests) : Prop where
  -- a code ends in one token or one rejection for each time that it is made
  once : ∀ code (ts : List ℕ), ts.Nodup → (∀ t ∈ ts, Redeemed requests t code ∨ Rejected requests t code) →
    ts.length ≤ events.countP (stores code)
  -- a token is for the payload that was stored, not longer ago than the code lives, and for who is entitled to it
  entitled : ∀ t request token code, requests.tasks.lookup t = some ⟨request, .done (.ok token)⟩ →
    request.presented = some code → ∃ older taken newer stored payload, events = older ++ taken :: newer ∧
      taken.task = t ∧ takes code taken = some payload.serialize ∧ stored ∈ older ∧
      stored.act = .setEx (codeKey code) payload.serialize oauthCodeTtlSeconds ∧
      taken.after.now ≤ stored.after.now + oauthCodeTtlSeconds * 1000 ∧
        Entitled s256 payload request.verification ∧
      ⟨.createToken payload, .ok token⟩ ∈ Pool.performed events t

/-! ### The store -/

section Store

variable {events : List Event} {s : ExchangeStore} {e : Event} {code : String}

theorem takes_take {t : ℕ} {request : Request} {key value : String} {res : Option (Option String)}
    {s' : ExchangeStore} : takes code ⟨t, request, .take key, res, s, s'⟩ = some value ↔
      key = codeKey code ∧ res = some (some value) := by
  rcases res with - | - | v
  · simp [takes]
  · simp [takes]
  · simp [takes]

/-- What is stored under a key was put there, to be kept for a while. -/
def Put (events : List Event) (key value : String) (expiry : ℕ) : Prop :=
  ∃ stored ∈ events, ∃ seconds, stored.act = .setEx key value seconds ∧
    expiry = stored.after.now + seconds * 1000

/-- Codes are stored or taken out, once for each time that they are made. -/
structure Kept (events : List Event) (s : ExchangeStore) : Prop where
  put : ∀ key value expiry, s.codes.lookup key = some (value, expiry) → Put events key value expiry
  once : ∀ code, (events.countP fun e => (takes code e).isSome) + (if (s.codes.lookup (codeKey code)).isSome then 1 else 0) ≤
    events.countP (stores code)
  taken : Run.Each (fun older e => ∀ code value, takes code e = some value →
    ∃ expiry, Put older (codeKey code) value expiry ∧ e.after.now ≤ expiry) events

theorem Put.concat {key value : String} {expiry : ℕ} (h : Put events key value expiry) :
    Put (events ++ [e]) key value expiry := by
  obtain ⟨stored, hmem, hstored⟩ := h
  exact ⟨stored, List.mem_append_left _ hmem, hstored⟩

theorem Kept.idle (h : Kept events s) (hcodes : e.after.codes = s.codes) (htakes : ∀ code, takes code e = none) :
    Kept (events ++ [e]) e.after := by
  refine ⟨fun key value expiry hl => (h.put key value expiry (by rw [← hcodes]; exact hl)).concat, fun code => ?_,
    Run.each_concat.2 ⟨h.taken, fun code value ht => by rw [htakes] at ht; cases ht⟩⟩
  have honce := h.once code
  rw [List.countP_append, List.countP_append, hcodes, List.countP_singleton, htakes code]
  simp only [Option.isSome_none, Bool.false_eq_true, if_false]
  omega

theorem Kept.setEx (h : Kept events s) {key value : String} {seconds : ℕ} (hact : e.act = .setEx key value seconds)
    (hcodes : e.after.codes = s.codes ∨
      e.after.codes = s.codes.insert key (value, e.after.now + seconds * 1000))
    (htakes : ∀ code, takes code e = none) : Kept (events ++ [e]) e.after := by
  rcases hcodes with hcodes | hcodes
  · exact h.idle hcodes htakes
  · refine ⟨fun key' value' expiry hl => ?_, fun code => ?_,
      Run.each_concat.2 ⟨h.taken, fun code value ht => by rw [htakes] at ht; cases ht⟩⟩
    · rw [hcodes] at hl
      rcases Assoc.lookup_insert_cases hl with ⟨rfl, heq⟩ | ⟨-, hl⟩
      · cases heq
        exact ⟨e, List.mem_append_right _ (List.mem_singleton_self e), seconds, hact, rfl⟩
      · exact (h.put key' value' expiry hl).concat
    · have honce := h.once code
      have hstores : stores code e = decide (key = codeKey code) := by rw [stores, hact]
      rw [List.countP_append, List.countP_append, hcodes, Assoc.lookup_insert_eq, List.countP_singleton,
        List.countP_singleton, htakes code, hstores]
      by_cases hkey : key = codeKey code
      · simp [hkey]
        split at honce <;> omega
      · simp [hkey, Ne.symm hkey]
        exact honce

theorem Kept.take (h : Kept events s) (key : String) (hcodes : e.after.codes = s.codes ∨ e.after.codes = s.codes.erase key)
    (htakes : ∀ code value, takes code e = some value → key = codeKey code ∧ e.after.codes = s.codes.erase key ∧
      ∃ expiry, s.codes.lookup key = some (value, expiry) ∧ e.after.now ≤ expiry)
    (hstores : ∀ code, stores code e = false) : Kept (events ++ [e]) e.after := by
  have hkept : ∀ key' value expiry, e.after.codes.lookup key' = some (value, expiry) →
      s.codes.lookup key' = some (value, expiry) := by
    intro key' value expiry hl
    rcases hcodes with hcodes | hcodes
    · rw [← hcodes]
      exact hl
    · rw [hcodes] at hl
      exact (Assoc.lookup_erase_cases hl).2
  refine ⟨fun key' value expiry hl => (h.put key' value expiry (hkept _ _ _ hl)).concat, fun code => ?_,
    Run.each_concat.2 ⟨h.taken, fun code value ht => ?_⟩⟩
  · have honce := h.once code
    rw [List.countP_append, List.countP_append, List.countP_singleton, List.countP_singleton, hstores code]
    cases ht : takes code e with
    | none =>
      have hle : (if (e.after.codes.lookup (codeKey code)).isSome then 1 else 0) ≤
          if (s.codes.lookup (codeKey code)).isSome then 1 else 0 := by
        cases hl : e.after.codes.lookup (codeKey code) with
        | none => simp
        | some v => simp [hkept _ v.1 v.2 hl]
      simp
      omega
    | some value =>
      obtain ⟨rfl, herase, expiry, hl, -⟩ := htakes code value ht
      rw [herase, AList.lookup_erase]
      rw [hl] at honce
      simp at honce ⊢
      omega
  · obtain ⟨rfl, -, expiry, hl, hle⟩ := htakes code value ht
    exact ⟨expiry, h.put _ _ _ hl, hle⟩

theorem kept_perform (h : Kept events s) (t : ℕ) (request : Request) (o : ExchangeStore.Meets) (act : ExchangeAct) :
    Kept (events ++ [⟨t, request, act, (s.perform o act).1, s, (s.perform o act).2⟩]) (s.perform o act).2 := by
  let e : Event := ⟨t, request, act, (s.perform o act).1, s, (s.perform o act).2⟩
  cases act with
  | connect => exact h.idle (e := e) rfl fun _ => rfl
  | timestamp => exact h.idle (e := e) rfl fun _ => rfl
  | createToken payload => exact h.idle (e := e) rfl fun _ => rfl
  | setEx key value seconds =>
    refine h.setEx (e := e) rfl ?_ fun _ => rfl
    by_cases hfate : o.fate = .refused
    · exact .inl (by simp [e, ExchangeStore.perform, hfate])
    · exact .inr (by simp [e, ExchangeStore.perform, hfate])
  | take key =>
    refine h.take (e := e) key ?_ (fun code value ht => ?_) fun _ => rfl
    · by_cases hfate : o.fate = .refused
      · exact .inl (by simp [e, ExchangeStore.perform, hfate])
      · exact .inr (by simp [e, ExchangeStore.perform, hfate])
    · obtain ⟨hkey, hvalue⟩ := takes_take.1 ht
      obtain ⟨hfate, hlive⟩ := CommandFate.answer_eq_some.1 hvalue
      obtain ⟨expiry, hl, hle⟩ := ExchangeStore.live_eq_some.1 hlive.symm
      have hafter : e.after.now = s.now + o.elapsed := by simp [e, ExchangeStore.perform, hfate]
      exact ⟨hkey, by simp [e, ExchangeStore.perform, hfate], expiry, hl, hafter.le.trans hle⟩

end Store

/-! ### The programs -/

/-- Only payloads are stored, for a minute. -/
def PayloadOnly (act : ExchangeAct) : Prop :=
  ∀ key value seconds, act = .setEx key value seconds →
    seconds = oauthCodeTtlSeconds ∧ ∃ payload : ExchangeCodePayload, value = payload.serialize

section Programs

variable {s256 : String → String} {ε ε' α β : Type}

def Payloads (x : ExchangeProg ε α) : Prop := x.run.Safe PayloadOnly (fun _ _ => True) fun _ => True

theorem Payloads.bind {x : ExchangeProg ε α} {f : α → ExchangeProg ε β} (h : Payloads x) (hf : ∀ a, Payloads (f a)) :
    Payloads (x >>= f) := by
  refine (Prog.safe_run_bind x f).2 (Prog.Safe.mono h fun r _ => ?_)
  cases r with
  | ok a => exact hf a
  | error e => trivial

theorem Payloads.adapt {x : ExchangeProg ε α} (h : Payloads x) (f : ε → ε') :
    Payloads (ExceptT.adapt f x) := by
  show (Except.mapError f <$> x.run).Safe _ _ _
  rw [map_eq_pure_bind, Prog.safe_bind]
  exact Prog.Safe.mono h fun _ _ => trivial

theorem payloads_pure (a : α) : Payloads (pure a : ExchangeProg ε α) := trivial

theorem payloads_throw (e : ε) : Payloads (throw e : ExchangeProg ε α) := trivial

theorem payloads_lift {act : ExchangeAct} (h : PayloadOnly act) :
    Payloads (ExceptT.lift (Prog.call act) : ExchangeProg ε act.Res) :=
  Prog.safe_run_lift.2 ⟨h, fun _ _ => trivial⟩

theorem payloads_idle {act : ExchangeAct} (h : ∀ key value seconds, act ≠ .setEx key value seconds) :
    Payloads (ExceptT.lift (Prog.call act) : ExchangeProg ε act.Res) :=
  payloads_lift fun key value seconds heq => absurd heq (h key value seconds)

theorem payloads_exchangeCodeInternal (code : String) (verification : Option (String × String)) :
    Payloads (exchangeCodeInternal s256 code verification) := by
  have hcheck : ∀ payload, Payloads (checkStored s256 verification payload) := by
    intro payload
    refine (payloads_idle (by simp)).bind fun now => ?_
    split
    · exact payloads_throw _
    · split
      · exact payloads_throw _
      · exact payloads_pure _
  refine (payloads_idle (by simp)).bind fun connected => ?_
  split
  · exact payloads_throw _
  · refine (payloads_idle (by simp)).bind fun found => ?_
    split
    · exact payloads_throw _
    · exact payloads_throw _
    · split
      · exact payloads_throw _
      · exact hcheck _

theorem payloads_createTokenWithPolicy (payload : ExchangeCodePayload) :
    Payloads (createTokenWithPolicy payload) := by
  refine (payloads_idle (by simp)).bind fun signed => ?_
  split <;> exact payloads_pure _

theorem payloads_run (request : Request) :
    (request.run s256).Safe PayloadOnly (fun _ _ => True) fun _ => True := by
  cases request with
  | create userId email role orgId ssoChallenge code =>
    refine Payloads.bind (payloads_idle (by simp)) fun now => Payloads.bind (payloads_idle (by simp)) fun connected => ?_
    split
    · exact payloads_throw _
    · refine Payloads.bind (payloads_lift ?_) fun stored => ?_
      · intro key value seconds heq
        cases heq
        exact ⟨rfl, _, rfl⟩
      · split
        · exact payloads_throw _
        · exact payloads_pure _
  | exchangeToken input =>
    show Payloads (exchangeToken s256 input)
    unfold exchangeToken
    split
    · exact payloads_throw _
    · split
      · exact payloads_throw _
      · refine ((payloads_exchangeCodeInternal _ _).adapt _).bind fun payload =>
          (payloads_createTokenWithPolicy payload).bind fun signed => ?_
        split
        · exact payloads_pure _
        · exact payloads_throw _
  | loginSsoCodeExchange mobileSsoCodeExchange input =>
    show Payloads (loginSsoCodeExchange s256 mobileSsoCodeExchange input)
    unfold loginSsoCodeExchange
    split
    · exact payloads_throw _
    · split
      · exact payloads_throw _
      · exact payloads_throw _
      · exact payloads_throw _
      · refine ((payloads_exchangeCodeInternal _ _).adapt _).bind fun payload =>
          (payloads_createTokenWithPolicy payload).bind fun signed => ?_
        split
        · exact payloads_pure _
        · exact payloads_throw _

def took (code value : String) : Sigma ExchangeAct.Res :=
  ⟨.take (codeKey code), (some (some value) : Option (Option String))⟩

theorem took_inj {code value value' : String} (h : took code value = took code value') : value = value' :=
  Option.some.inj (Option.some.inj (eq_of_heq (Sigma.mk.inj h).2))

theorem verifySsoMetadata_ok {payload : ExchangeCodePayload} {verification : Option (String × String)}
    (h : verifySsoMetadata s256 payload verification = .ok ()) : Entitled s256 payload verification := by
  intro hrequired
  unfold verifySsoMetadata at h
  rw [if_pos hrequired] at h
  split at h
  · cases h
  · cases h
  · cases h
  · next expectedState codeChallenge codeVerifier state hstate hchallenge =>
    split at h
    · cases h
    · next hsame =>
      split at h
      · cases h
      · next challenge hcomputed =>
        split at h
        · cases h
        · next heq =>
          refine ⟨codeVerifier, state, codeChallenge, rfl, ?_, hchallenge, ?_⟩
          · rw [hstate, not_not.1 hsame]
          · rw [hcomputed, not_not.1 heq]

/-- An exchange that succeeds has taken out a payload that the request is entitled to, and one that fails the binding
check has taken out something. -/
theorem path_exchangeCodeInternal {code : String} {verification : Option (String × String)}
    {es : List (Sigma ExchangeAct.Res)} {r : Except ExchangeError ExchangeCodePayload}
    (h : (exchangeCodeInternal s256 code verification).run.Path es r) :
    (∃ stored, took code stored ∈ es ∧ ∀ payload, r = .ok payload →
      ExchangeCodePayload.deserialize stored = some payload ∧ Entitled s256 payload verification) ∨
      r = .error .internal ∨ r = .error .invalidCode := by
  obtain ⟨connected, es₁, rfl, h₁⟩ := Prog.path_run_call.1 h
  cases connected with
  | none => exact .inr (.inl h₁.2.symm)
  | some u =>
    obtain ⟨found, es₂, rfl, h₂⟩ := Prog.path_run_call.1 h₁
    rcases found with - | - | stored
    · exact .inr (.inl h₂.2.symm)
    · exact .inr (.inr h₂.2.symm)
    · refine .inl ⟨stored, by simp [took], fun payload hr => ?_⟩
      subst hr
      dsimp only at h₂
      split at h₂
      · cases h₂.2
      · next payload' hread =>
        obtain ⟨now, es₃, rfl, h₃⟩ := Prog.path_run_call.1 h₂
        split at h₃
        · cases h₃.2
        · split at h₃
          · cases h₃.2
          · next hok =>
            cases h₃.2
            exact ⟨hread, verifySsoMetadata_ok hok⟩

theorem internal_notMem (message : String) : AppError.internal message ∉ bindingErrors := by
  simp [bindingErrors]

theorem path_redeem {code required failed : String} {verification : Option (String × String)} (wrap : String → String)
    {es : List (Sigma ExchangeAct.Res)} {r : Except AppError String}
    (h : Prog.Path (ExceptT.run (do
      let payload ← ExceptT.adapt (ExchangeError.toAppError required failed) (exchangeCodeInternal s256 code verification)
      match ← createTokenWithPolicy payload with
      | .ok token => pure token
      | .error message => throw (.internal (wrap message)))) es r) :
    (∀ token, r = .ok token → ∃ stored payload, took code stored ∈ es ∧
      ExchangeCodePayload.deserialize stored = some payload ∧ Entitled s256 payload verification ∧
        ⟨.createToken payload, (.ok token : Except String String)⟩ ∈ es) ∧
    ∀ e ∈ bindingErrors, r = .error e → ∃ stored, took code stored ∈ es := by
  rcases (Prog.path_run_bind _ _).1 h with ⟨payload, es₁, es₂, rfl, hexchange, hsign⟩ | ⟨e, rfl, hexchange⟩
  · obtain ⟨r', hr', hexchange⟩ := (Prog.path_run_adapt _).1 hexchange
    obtain rfl : r' = .ok payload := by cases r' <;> cases hr'; rfl
    obtain ⟨stored, htook, hstored⟩ := (path_exchangeCodeInternal hexchange).resolve_right (by simp)
    obtain ⟨hread, hentitled⟩ := hstored payload rfl
    refine ⟨fun token hr => ?_, fun e _ _ => ⟨stored, List.mem_append_left _ htook⟩⟩
    subst hr
    refine ⟨stored, payload, List.mem_append_left _ htook, hread, hentitled, List.mem_append_right _ ?_⟩
    rcases (Prog.path_run_bind _ _).1 hsign with ⟨signed, es₃, es₄, rfl, hcreate, hend⟩ | ⟨e, he, -⟩
    · obtain ⟨made, es₅, rfl, hmade⟩ := Prog.path_run_call.1 hcreate
      cases made with
      | ok token' =>
        cases hmade.2
        cases hend.2
        exact List.mem_cons_self
      | error e =>
        cases hmade.2
        cases hend.2
    · cases he
  · obtain ⟨r', hr', hexchange⟩ := (Prog.path_run_adapt _).1 hexchange
    refine ⟨fun token hr => (by cases hr), fun e' he' hr => ?_⟩
    cases hr
    rcases path_exchangeCodeInternal hexchange with ⟨stored, htook, -⟩ | rfl | rfl
    · exact ⟨stored, htook⟩
    · cases hr'
      exact absurd he' (internal_notMem _)
    · cases hr'
      exact absurd he' (by simp [bindingErrors, ExchangeError.toAppError])

def earlyErrors : List String :=
  ["Missing exchange code", "Invalid exchange code", "Mobile SSO code exchange is disabled", "Missing login_code",
    "Missing code_verifier", "Missing state"]

theorem early_notMem : ∀ message ∈ earlyErrors, AppError.badRequest message ∉ bindingErrors := by decide

theorem path_request {request : Request} {code : String} {es : List (Sigma ExchangeAct.Res)} {r : Except AppError String}
    (h : (request.run s256).Path es r) (hcode : request.presented = some code) :
    (∀ token, r = .ok token → ∃ stored payload, took code stored ∈ es ∧
      ExchangeCodePayload.deserialize stored = some payload ∧ Entitled s256 payload request.verification ∧
        ⟨.createToken payload, (.ok token : Except String String)⟩ ∈ es) ∧
    ∀ e ∈ bindingErrors, r = .error e → ∃ stored, took code stored ∈ es := by
  have hearly : ∀ message ∈ earlyErrors, es = [] ∧ .error (AppError.badRequest message) = r →
      (∀ token, r = .ok token → ∃ stored payload, took code stored ∈ es ∧
        ExchangeCodePayload.deserialize stored = some payload ∧ Entitled s256 payload request.verification ∧
          ⟨.createToken payload, (.ok token : Except String String)⟩ ∈ es) ∧
      ∀ e ∈ bindingErrors, r = .error e → ∃ stored, took code stored ∈ es := by
    rintro message hmem ⟨rfl, rfl⟩
    refine ⟨fun token hr => (by cases hr), fun e he hr => ?_⟩
    cases hr
    exact absurd he (early_notMem message hmem)
  cases request with
  | create userId email role orgId ssoChallenge code => cases hcode
  | exchangeToken input =>
    replace h : (exchangeToken s256 input).run.Path es r := h
    have hpresented : input.presented = some code := hcode
    unfold exchangeToken at h
    rw [hpresented] at h
    dsimp only at h
    split at h
    · exact hearly _ (by simp [earlyErrors]) h
    · exact path_redeem (fun message => "Failed to create token: Internal server error: " ++ message) h
  | loginSsoCodeExchange mobileSsoCodeExchange input =>
    replace h : (loginSsoCodeExchange s256 mobileSsoCodeExchange input).run.Path es r := h
    unfold loginSsoCodeExchange at h
    split at h
    · exact hearly _ (by simp [earlyErrors]) h
    · have hpresented : given input.loginCode = some code := hcode
      split at h
      · next hnone => cases hnone.symm.trans hpresented
      · exact hearly _ (by simp [earlyErrors]) h
      · exact hearly _ (by simp [earlyErrors]) h
      · next code' codeVerifier state hc hv hs =>
        obtain rfl := Option.some.inj (hc.symm.trans hpresented)
        have hverification : (Request.loginSsoCodeExchange mobileSsoCodeExchange input).verification =
            some (codeVerifier, state) := by
          rw [Request.verification, hv, hs]
          rfl
        rw [hverification]
        exact path_redeem id h

end Programs

/-- The challenge of the verifier `v`. -/
def challengeV (_ : String) : String := "TJRIXgwhrmxBzh3-e2v6zupato5AokdvUCCOUm9QYIA"

end Oauth

end Rustchat
