import Rustchat.EmailAccounts
import Rustchat.Lib.Prog
import Rustchat.OauthExchange

/-!
# Password reset tokens (`services/password_reset.rs`, `services/auth_config.rs`)

A request for a reset, or for the setup of a first password, stores the hash of a random token and mails the token. A
request that presents the token reads its row, checks that it was not used, and changes the password in a transaction
that marks the row as used. The row is locked while it is read and not while the password is hashed, and the
transaction does not look at the row again: two requests that present one token can both change the password. A token
is for one change exactly as long as each transaction finds the row still unused (`PasswordReset.singleUse_iff`).
-/

namespace Rustchat

namespace PasswordReset

open Oauth (CommandFate)

inductive IpAddr
  | v4 (bits : BitVec 32)
  | v6 (bits : BitVec 128)
deriving DecidableEq

/-- What is inserted into `password_reset_tokens`, with times in microseconds. -/
structure NewToken where
  tokenHash : String
  userId : Option Uuid
  email : String
  purpose : String
  expiresAt : Int
  createdIp : Option IpAddr
  userAgent : Option String

structure ResetToken extends NewToken where
  usedAt : Option Int
  createdAt : Int

structure Db where
  tokens : List ResetToken
  accounts : Accounts
  -- the clock
  now : Int

inductive PasswordResetError
  | tokenNotFound
  | tokenExpired
  | tokenAlreadyUsed
  | rateLimitExceeded
  | invalidPassword (message : String)
  | userNotFound
  | emailNotConfigured
  | internal (message : String)
deriving DecidableEq

/-- The rules for passwords among the settings for authentication. -/
structure AuthConfig where
  passwordMinLength : Int
  passwordRequireLowercase : Bool
  passwordRequireUppercase : Bool
  passwordRequireNumber : Bool
  passwordRequireSymbol : Bool

/-- Classes of characters, as in Rust. -/
structure CharClasses where
  isLowercase : Char → Bool
  isUppercase : Char → Bool
  isNumeric : Char → Bool
  isAlphanumeric : Char → Bool

/-- What a transaction comes to that marks a token as used and sets a password. -/
inductive TxFate
  | committed
  | noBegin
  | noTokenUpdate
  | noPasswordUpdate
  -- `applied` is not known to the request
  | noCommit (applied : Bool)

def TxFate.applied : TxFate → Bool
  | committed => true
  | noCommit applied => applied
  | _ => false

inductive ResetAct
  -- `Utc::now()`
  | now
  | getPasswordRules
  | selectForUpdate (tokenHash : String)
  | hashPassword (password : String)
  | transaction (tokenHash passwordHash : String) (userId : Uuid) (activateUser : Bool)
  | countEmail (email : String) (since : Int)
  | countIp (ip : IpAddr) (since : Int)
  | selectByEmail (email : String)
  | selectById (userId : Uuid)
  | generateSecureToken
  | insertToken (row : NewToken)
  | selectSiteUrl
  | enqueueEmail (recipient : String) (userId : Uuid) (payload : Json)
  -- what else the server does to the accounts
  | writeAccounts (change : Accounts → Accounts)

def ResetAct.Res : ResetAct → Type
  | now => Int
  | getPasswordRules => Option AuthConfig
  | selectForUpdate _ => Option (Option ResetToken)
  | hashPassword _ => Option String
  | transaction _ _ _ _ => TxFate
  | countEmail _ _ => Option ℕ
  | countIp _ _ => Option ℕ
  | selectByEmail _ => Option (Option (Uuid × User))
  | selectById _ => Option (Option (Uuid × User))
  | generateSecureToken => String
  | insertToken _ => CommandFate
  | selectSiteUrl => Option String
  | enqueueEmail _ _ _ => Option Uuid
  | writeAccounts _ => Unit

/-- What a step meets: the time that has passed, how the database answers, and what is drawn or read elsewhere. -/
structure Meets where
  elapsed : ℕ
  fate : CommandFate
  tx : TxFate
  authConfig : AuthConfig
  passwordHash : Option String
  token : String
  siteUrl : Option String
  outboxId : Option Uuid

def tokenValidity : Int := 60 * 60000000

def hour : Int := 3600000000

namespace Db

def markUsed (db : Db) (tokenHash : String) : List ResetToken :=
  db.tokens.map fun row => if row.tokenHash = tokenHash then { row with usedAt := some db.now } else row

def setPassword (db : Db) (passwordHash : String) (userId : Uuid) (activateUser : Bool) : Accounts :=
  ⟨db.accounts.users.modify userId fun user => { user with
    passwordHash := some passwordHash
    emailVerified := true
    isActive := if activateUser then true else user.isActive }⟩

/-- A transaction takes effect as a whole. The rows that it has written are locked until then, so that a statement that
needs one of them waits. -/
def perform (o : Meets) (act : ResetAct) (db : Db) : act.Res × Db :=
  let db := { db with now := db.now + o.elapsed }
  match act with
  | .now => (db.now, db)
  | .getPasswordRules => (o.fate.answer o.authConfig, db)
  | .selectForUpdate tokenHash => (o.fate.answer (db.tokens.find? fun row => row.tokenHash = tokenHash), db)
  | .hashPassword _ => (o.passwordHash, db)
  | .transaction tokenHash passwordHash userId activateUser =>
    (o.tx, if o.tx.applied then
      { db with tokens := db.markUsed tokenHash, accounts := db.setPassword passwordHash userId activateUser } else db)
  | .countEmail email since =>
    (o.fate.answer (db.tokens.countP fun row =>
      row.email = email ∧ since < row.createdAt ∧ db.now - hour < row.createdAt), db)
  | .countIp ip since =>
    (o.fate.answer (db.tokens.countP fun row => row.createdIp = some ip ∧ since < row.createdAt), db)
  | .selectByEmail email => (o.fate.answer (db.accounts.loginUser email), db)
  | .selectById userId =>
    (o.fate.answer (((db.accounts.users.lookup userId).filter fun user =>
      user.isActive = true ∧ user.deletedAt = none).map fun user => (userId, user)), db)
  | .generateSecureToken => (o.token, db)
  | .insertToken row =>
    (o.fate, if o.fate = .refused then db else { db with tokens := db.tokens ++ [⟨row, none, db.now⟩] })
  | .selectSiteUrl => (o.siteUrl, db)
  | .enqueueEmail _ _ _ => (o.outboxId, db)
  | .writeAccounts change => ((), { db with accounts := change db.accounts })

end Db

abbrev ResetProg := ExceptT PasswordResetError (Prog ResetAct ResetAct.Res)

def query (act : ResetAct) : ResetProg act.Res := ExceptT.lift (Prog.call act)

def utcNow : ResetProg Int := query .now

def validatePassword (classes : CharClasses) (password : String) (config : AuthConfig) :
    Except AppError Unit :=
  if password.utf8ByteSize < (config.passwordMinLength % 2 ^ 64).toNat then
    .error (.validation ("Password must be at least " ++ toString config.passwordMinLength ++ " characters long"))
  else if config.passwordRequireLowercase && !password.toList.any classes.isLowercase then
    .error (.validation "Password must contain at least one lowercase letter")
  else if config.passwordRequireUppercase && !password.toList.any classes.isUppercase then
    .error (.validation "Password must contain at least one uppercase letter")
  else if config.passwordRequireNumber && !password.toList.any classes.isNumeric then
    .error (.validation "Password must contain at least one number")
  else if config.passwordRequireSymbol && !password.toList.any (fun c => !classes.isAlphanumeric c) then
    .error (.validation "Password must contain at least one symbol")
  else .ok ()

def constantTimeCompare (a b : String) : Bool :=
  if a.utf8ByteSize ≠ b.utf8ByteSize then false
  else ((a.toUTF8.data.toList.zip b.toUTF8.data.toList).foldl (fun result p => result ||| (p.1 ^^^ p.2)) (0 : UInt8)) == 0

def changePassword (tokenHash newPassword : String) (row : ResetToken) : ResetProg Uuid :=
  match row.userId with
  -- `NULL` does not decode as a `Uuid`
  | none => throw (.internal "Token validation failed")
  | some userId =>
    if constantTimeCompare row.tokenHash tokenHash = false then throw .tokenNotFound
    else if row.usedAt.isSome then throw .tokenAlreadyUsed
    else do
      let now ← utcNow
      if row.expiresAt < now then throw .tokenExpired
      else
        match ← query (.hashPassword newPassword) with
        | none => throw (.internal "Failed to hash password")
        | some passwordHash =>
          match ← query (.transaction tokenHash passwordHash userId (row.purpose = "password_setup")) with
          | .noBegin => throw (.internal "Database error")
          | .noTokenUpdate => throw (.internal "Failed to consume token")
          | .noPasswordUpdate => throw (.internal "Failed to update password")
          | .noCommit _ => throw (.internal "Database error")
          | .committed => pure userId

/-- What the tokens depend on: `hash_token` is SHA-256 in hexadecimal. -/
structure Env where
  maps : CaseMaps
  classes : CharClasses
  hashToken : String → String

section Requests

variable (env : Env)

def resetPassword (token newPassword : String) : ResetProg Uuid := do
  match ← query .getPasswordRules with
  | none => throw (.internal "Failed to load password policy")
  | some authConfig =>
    match validatePassword env.classes newPassword authConfig with
    | .error (.validation message) => throw (.invalidPassword message)
    | .error _ => throw (.internal "Failed to validate password")
    | .ok () =>
      match ← query (.selectForUpdate (env.hashToken token)) with
      | none => throw (.internal "Token validation failed")
      | some none => throw .tokenNotFound
      | some (some row) => changePassword (env.hashToken token) newPassword row

def rateLimitIpHourly : ℕ := 10

def rateLimitEmailHourly : ℕ := 3

def checkRateLimits (email : String) (ipAddress : Option IpAddr) : ResetProg Unit := do
  let now ← utcNow
  let since := now - hour
  match ← query (.countEmail email since) with
  | none => throw (.internal "Rate limit check failed")
  | some emailCount =>
    if rateLimitEmailHourly ≤ emailCount then throw .rateLimitExceeded
    else
      match ipAddress with
      | none => pure ()
      | some ip =>
        match ← query (.countIp ip since) with
        | none => throw (.internal "Rate limit check failed")
        | some ipCount => if rateLimitIpHourly ≤ ipCount then throw .rateLimitExceeded else pure ()

def storeToken (userId : Option Uuid) (email purpose : String) (ipAddress : Option IpAddr) (userAgent : Option String)
    (failed : String) : ResetProg String := do
  let token ← query .generateSecureToken
  let now ← utcNow
  match ← query (.insertToken ⟨env.hashToken token, userId, email, purpose, now + tokenValidity, ipAddress, userAgent⟩) with
  | .answered => pure token
  | _ => throw (.internal failed)

def fetchSiteUrl : ResetProg (Option String) := do
  let siteUrl ← query .selectSiteUrl
  pure (siteUrl.filter (· ≠ ""))

/-- `ipText` is the address of the request, which only a mail about a reset names. -/
def mailPayload (userName email resetLink : String) (ipText : Option String) : Json :=
  .obj ([("user_name", .str userName), ("email", .str email), ("reset_link", .str resetLink), ("expiry_hours", .num 1),
    ("site_name", .str "RustChat")] ++ (ipText.map fun ip => ("ip_address", Json.str ip)).toList)

/-- `ipText` is `to_string` of an address. -/
def requestPasswordReset (ipText : IpAddr → String) (email : String) (ipAddress : Option IpAddr)
    (userAgent : Option String) : ResetProg Unit := do
  let email := env.maps.toLowercase (trimText email)
  checkRateLimits email ipAddress
  match ← query (.selectByEmail email) with
  | none => throw (.internal "Database error")
  | some user =>
    let token ← storeToken env (user.map (·.1)) email "password_reset" ipAddress userAgent "Failed to create reset token"
    match user with
    | none => pure ()
    | some (userId, user) =>
      match ← fetchSiteUrl with
      | none => pure ()
      | some siteUrl =>
        let _ ← query (.enqueueEmail user.email userId (mailPayload user.username user.email
          (siteUrl ++ "/reset-password?token=" ++ token) (some ((ipAddress.map ipText).getD ""))))
        pure ()

def sendSetupMail (userId : Uuid) (username email setupLink : String) : ResetProg Unit := do
  match ← query (.enqueueEmail email userId (mailPayload username email setupLink none)) with
  | none => throw (.internal "Failed to send setup email")
  | some _ => pure ()

def requestPasswordSetup (userId : Uuid) (ipAddress : Option IpAddr) (userAgent : Option String) :
    ResetProg Unit := do
  match ← query (.selectById userId) with
  | none => throw (.internal "Database error")
  | some none => throw .userNotFound
  | some (some (_, user)) =>
    checkRateLimits user.email ipAddress
    let token ← storeToken env (some userId) user.email "password_setup" ipAddress userAgent "Failed to create setup token"
    match ← fetchSiteUrl with
    | none => throw .emailNotConfigured
    | some siteUrl => sendSetupMail userId user.username user.email (siteUrl ++ "/setup-password?token=" ++ token)

def sendPasswordSetupEmail (userId : Uuid) (username email siteUrl : String) : ResetProg Unit := do
  checkRateLimits email none
  let token ← storeToken env (some userId) email "password_setup" none none "Failed to create setup token"
  sendSetupMail userId username email (siteUrl ++ "/set-password?token=" ++ token)

end Requests

inductive Request
  | resetPassword (token newPassword : String)
  | requestPasswordReset (email : String) (ipAddress : Option IpAddr) (userAgent : Option String)
  | requestPasswordSetup (userId : Uuid) (ipAddress : Option IpAddr) (userAgent : Option String)
  -- after a registration, which came from `remote`
  | sendPasswordSetupEmail (userId : Uuid) (username email siteUrl : String) (remote : IpAddr)
  | writeAccounts (change : Accounts → Accounts)

inductive Answer
  | passwordChanged (userId : Uuid)
  | accepted
deriving DecidableEq

def Request.run (env : Env) (ipText : IpAddr → String) :
    Request → Prog ResetAct ResetAct.Res (Except PasswordResetError Answer)
  | resetPassword token newPassword =>
    (PasswordReset.resetPassword env token newPassword >>= fun userId => pure (.passwordChanged userId)).run
  | requestPasswordReset email ipAddress userAgent =>
    (PasswordReset.requestPasswordReset env ipText email ipAddress userAgent >>= fun _ => pure .accepted).run
  | requestPasswordSetup userId ipAddress userAgent =>
    (PasswordReset.requestPasswordSetup env userId ipAddress userAgent >>= fun _ => pure .accepted).run
  | sendPasswordSetupEmail userId username email siteUrl _ =>
    (PasswordReset.sendPasswordSetupEmail env userId username email siteUrl >>= fun _ => pure .accepted).run
  | writeAccounts change => (query (.writeAccounts change) >>= fun _ => pure .accepted).run

abbrev Requests := Pool Db Request ResetAct ResetAct.Res (Except PasswordResetError Answer)

abbrev Input := Pool.Input Request Meets

abbrev Event := Pool.Event Db Request ResetAct ResetAct.Res

section Pools

variable (env : Env) (ipText : IpAddr → String)

abbrev step : Requests → Input → Option Requests := Pool.step (Request.run env ipText) fun _ => Db.perform

def start (accounts : Accounts) (now : Int) : Requests := Pool.start ⟨[], accounts, now⟩

abbrev trace (accounts : Accounts) (now : Int) (inputs : List Input) : List Event :=
  Pool.trace (Request.run env ipText) (fun _ => Db.perform) (start accounts now) inputs

end Pools

/-- A password is changed with a token that has this hash. -/
def changes (tokenHash : String) : Event → Bool
  | ⟨_, _, .transaction tokenHash' _ _ _, fate, _, _⟩ => tokenHash' = tokenHash && TxFate.applied fate
  | _ => false

/-- The request has changed a password with the token, or says that it has. -/
def Uses (env : Env) (events : List Event) (requests : Requests) (t : ℕ) (token : String) : Prop :=
  (∃ e ∈ events, e.task = t ∧ changes (env.hashToken token) e = true) ∨
    ∃ newPassword answer, requests.tasks.lookup t = some ⟨.resetPassword token newPassword,
      .done (.ok answer)⟩

/-- A token is for one request. -/
def SingleUse (env : Env) (events : List Event) (requests : Requests) : Prop :=
  ∀ token t t', Uses env events requests t token → Uses env events requests t' token → t = t'

/-- A transaction that takes effect finds the row of its token not used. -/
def FindsUnused (env : Env) (e : Event) : Prop :=
  ∀ token, changes (env.hashToken token) e = true →
    ∃ row ∈ e.before.tokens, row.tokenHash = env.hashToken token ∧ row.usedAt = none

def ResetAct.storedHash : ResetAct → Option String
  | insertToken row => some row.tokenHash
  | _ => none

/-- The token that is stored is not one of those before it. -/
def IsNew (e : Event) : Prop :=
  ∀ tokenHash ∈ e.act.storedHash, tokenHash ∉ e.before.tokens.map fun row => row.tokenHash

instance : DecidablePred IsNew := fun e => inferInstanceAs (Decidable (∀ tokenHash ∈ e.act.storedHash, _))

def ResetAct.isTransaction : ResetAct → Bool
  | transaction _ _ _ _ => true
  | _ => false

def read (tokenHash : String) (row : ResetToken) : Sigma ResetAct.Res :=
  ⟨.selectForUpdate tokenHash, (some (some row) : Option (Option ResetToken))⟩

/-- A transaction comes after its row was read unused, and no transaction comes before it. -/
def ReadUnused (past : List (Sigma ResetAct.Res)) (act : ResetAct) : Prop :=
  ∀ tokenHash passwordHash userId activateUser, act = .transaction tokenHash passwordHash userId activateUser →
    (∃ row, row.usedAt = none ∧ read tokenHash row ∈ past) ∧ ∀ x ∈ past, x.1.isTransaction = false

theorem transaction_of_changes {tokenHash : String} {e : Event} (h : changes tokenHash e = true) :
    ∃ passwordHash userId activateUser, e.act = .transaction tokenHash passwordHash userId activateUser := by
  obtain ⟨t, request, act, fate, before, after⟩ := e
  cases act with
  | transaction tokenHash' passwordHash userId activateUser =>
    obtain ⟨heq, -⟩ := Bool.and_eq_true_iff.1 h
    rw [of_decide_eq_true heq]
    exact ⟨passwordHash, userId, activateUser, rfl⟩
  | _ => cases h

section Programs

variable {env : Env} {ipText : IpAddr → String} {past : List (Sigma ResetAct.Res)}

theorem readUnused_other {act : ResetAct} (h : act.isTransaction = false) : ReadUnused past act := by
  rintro tokenHash passwordHash userId activateUser rfl
  cases h

theorem follows_changePassword {tokenHash newPassword : String} {row : ResetToken} (hread : read tokenHash row ∈ past)
    (hpast : ∀ x ∈ past, x.1.isTransaction = false) :
    (changePassword tokenHash newPassword row).run.Follows ReadUnused past := by
  unfold changePassword
  split
  · exact trivial
  · split
    · exact trivial
    · split
      · exact trivial
      · next hunused =>
        refine Prog.follows_run_call.2 ⟨readUnused_other rfl, fun now => ?_⟩
        split
        · exact trivial
        · refine Prog.follows_run_call.2 ⟨readUnused_other rfl, fun hashed => ?_⟩
          split
          · exact trivial
          · refine Prog.follows_run_call.2 ⟨?_, fun fate => ?_⟩
            · rintro tokenHash' passwordHash userId activateUser heq
              cases heq
              refine ⟨⟨row, by simpa using hunused, by simp [hread]⟩, ?_⟩
              intro x hx
              simp only [List.append_assoc, List.mem_append, List.cons_append, List.nil_append, List.mem_cons,
                List.not_mem_nil, or_false] at hx
              rcases hx with hx | rfl | rfl
              · exact hpast x hx
              · rfl
              · rfl
            · split <;> exact trivial

theorem follows_resetPassword (token newPassword : String) :
    (resetPassword env token newPassword).run.Follows ReadUnused [] := by
  refine Prog.follows_run_call.2 ⟨readUnused_other rfl, fun rules => ?_⟩
  split
  · exact trivial
  · split
    · exact trivial
    · exact trivial
    · refine Prog.follows_run_call.2 ⟨readUnused_other rfl, fun found => ?_⟩
      split
      · exact trivial
      · exact trivial
      · next row =>
        refine follows_changePassword (by simp [read]) fun x hx => ?_
        simp only [List.nil_append, List.cons_append, List.mem_cons, List.not_mem_nil, or_false] at hx
        rcases hx with rfl | rfl
        · rfl
        · rfl

section Only

variable {guar : ResetAct → Prop} {α β : Type}

/-- The program performs only statements in `guar`. -/
def Only (guar : ResetAct → Prop) (x : ResetProg α) : Prop := x.run.Safe guar (fun _ _ => True) fun _ => True

theorem only_pure (a : α) : Only guar (pure a) := trivial

theorem only_throw (e : PasswordResetError) : Only guar (throw e : ResetProg α) := trivial

theorem only_query {act : ResetAct} (h : guar act) : Only guar (query act) :=
  Prog.safe_run_lift.2 ⟨h, fun _ _ => trivial⟩

theorem Only.bind {x : ResetProg α} {f : α → ResetProg β} (h : Only guar x) (hf : ∀ a, Only guar (f a)) :
    Only guar (x >>= f) := by
  refine (Prog.safe_run_bind x f).2 (Prog.Safe.mono h fun r _ => ?_)
  cases r with
  | ok a => exact hf a
  | error e => trivial

theorem only_fetchSiteUrl (h : guar .selectSiteUrl) : Only guar fetchSiteUrl :=
  (only_query h).bind fun _ => only_pure _

theorem only_sendSetupMail {userId : Uuid} {username email setupLink : String}
    (h : ∀ recipient userId payload, guar (.enqueueEmail recipient userId payload)) :
    Only guar (sendSetupMail userId username email setupLink) := by
  refine (only_query (h _ _ _)).bind fun sent => ?_
  split
  · exact only_throw _
  · exact only_pure _

end Only

def Changeless (act : ResetAct) : Prop := act.isTransaction = false

theorem changeless_query {act : ResetAct} (h : act.isTransaction = false) : Only Changeless (query act) :=
  only_query h

theorem changeless_checkRateLimits (email : String) (ipAddress : Option IpAddr) :
    Only Changeless (checkRateLimits email ipAddress) := by
  refine (changeless_query rfl).bind fun now => (changeless_query rfl).bind fun emailCount => ?_
  split
  · exact only_throw _
  · split
    · exact only_throw _
    · split
      · exact only_pure _
      · refine (changeless_query rfl).bind fun ipCount => ?_
        split
        · exact only_throw _
        · split
          · exact only_throw _
          · exact only_pure _

theorem changeless_storeToken (userId : Option Uuid) (email purpose : String) (ipAddress : Option IpAddr)
    (userAgent : Option String) (failed : String) :
    Only Changeless (storeToken env userId email purpose ipAddress userAgent failed) := by
  refine (changeless_query rfl).bind fun token => (changeless_query rfl).bind fun now =>
    (changeless_query rfl).bind fun fate => ?_
  match fate with
  | .answered => exact only_pure _
  | .refused => exact only_throw _
  | .unanswered => exact only_throw _

theorem changeless_fetchSiteUrl : Only Changeless fetchSiteUrl := only_fetchSiteUrl rfl

theorem changeless_requestPasswordReset (email : String) (ipAddress : Option IpAddr) (userAgent : Option String) :
    Only Changeless (requestPasswordReset env ipText email ipAddress userAgent) := by
  refine (changeless_checkRateLimits _ _).bind fun _ => (changeless_query rfl).bind fun found => ?_
  split
  · exact only_throw _
  · refine (changeless_storeToken _ _ _ _ _ _).bind fun token => ?_
    split
    · exact only_pure _
    · refine changeless_fetchSiteUrl.bind fun siteUrl => ?_
      split
      · exact only_pure _
      · exact (changeless_query rfl).bind fun _ => only_pure _

theorem changeless_requestPasswordSetup (userId : Uuid) (ipAddress : Option IpAddr) (userAgent : Option String) :
    Only Changeless (requestPasswordSetup env userId ipAddress userAgent) := by
  refine (changeless_query rfl).bind fun found => ?_
  split
  · exact only_throw _
  · exact only_throw _
  · refine (changeless_checkRateLimits _ _).bind fun _ => (changeless_storeToken _ _ _ _ _ _).bind fun token =>
      changeless_fetchSiteUrl.bind fun siteUrl => ?_
    split
    · exact only_throw _
    · exact only_sendSetupMail fun _ _ _ => rfl

theorem changeless_sendPasswordSetupEmail (userId : Uuid) (username email siteUrl : String) :
    Only Changeless (sendPasswordSetupEmail env userId username email siteUrl) :=
  (changeless_checkRateLimits _ _).bind fun _ => (changeless_storeToken _ _ _ _ _ _).bind fun _ =>
    only_sendSetupMail fun _ _ _ => rfl

theorem follows_run (request : Request) : (request.run env ipText).Follows ReadUnused [] := by
  have hother : ∀ x : ResetProg Answer, Only Changeless x → x.run.Follows ReadUnused [] :=
    fun x hx => hx.follows fun _ _ => readUnused_other
  cases request with
  | resetPassword token newPassword =>
    exact (Prog.follows_run_bind _ _).2 ⟨follows_resetPassword token newPassword, fun _ _ _ => trivial⟩
  | requestPasswordReset email ipAddress userAgent =>
    exact hother _ ((changeless_requestPasswordReset _ _ _).bind fun _ => only_pure _)
  | requestPasswordSetup userId ipAddress userAgent =>
    exact hother _ ((changeless_requestPasswordSetup _ _ _).bind fun _ => only_pure _)
  | sendPasswordSetupEmail userId username email siteUrl remote =>
    exact hother _ ((changeless_sendPasswordSetupEmail _ _ _ _).bind fun _ => only_pure _)
  | writeAccounts change => exact hother _ ((changeless_query rfl).bind fun _ => only_pure _)

theorem path_changePassword {tokenHash newPassword : String} {row : ResetToken} {es : List (Sigma ResetAct.Res)}
    {userId : Uuid} (h : (changePassword tokenHash newPassword row).run.Path es (.ok userId)) :
    ∃ passwordHash activateUser,
      ⟨.transaction tokenHash passwordHash userId activateUser, TxFate.committed⟩ ∈ es := by
  unfold changePassword at h
  split at h
  · cases h.2
  · split at h
    · cases h.2
    · split at h
      · cases h.2
      · obtain ⟨now, es₁, rfl, h₁⟩ := Prog.path_run_call.1 h
        split at h₁
        · cases h₁.2
        · obtain ⟨hashed, es₂, rfl, h₂⟩ := Prog.path_run_call.1 h₁
          split at h₂
          · cases h₂.2
          · next passwordHash =>
            obtain ⟨fate, es₃, rfl, h₃⟩ := Prog.path_run_call.1 h₂
            split at h₃
            · cases h₃.2
            · cases h₃.2
            · cases h₃.2
            · cases h₃.2
            · cases h₃.2
              exact ⟨passwordHash, _, List.mem_cons_of_mem _ (List.mem_cons_of_mem _ List.mem_cons_self)⟩

theorem path_resetPassword {token newPassword : String} {es : List (Sigma ResetAct.Res)} {userId : Uuid}
    (h : (resetPassword env token newPassword).run.Path es (.ok userId)) :
    ∃ passwordHash activateUser,
      ⟨.transaction (env.hashToken token) passwordHash userId activateUser, TxFate.committed⟩ ∈ es := by
  obtain ⟨rules, es₁, rfl, h₁⟩ := Prog.path_run_call.1 h
  split at h₁
  · cases h₁.2
  · split at h₁
    · cases h₁.2
    · cases h₁.2
    · obtain ⟨found, es₂, rfl, h₂⟩ := Prog.path_run_call.1 h₁
      split at h₂
      · cases h₂.2
      · cases h₂.2
      · obtain ⟨passwordHash, activateUser, hmem⟩ := path_changePassword h₂
        exact ⟨passwordHash, activateUser, by simp [hmem]⟩

end Programs

/-! ### The rows -/

section Rows

variable {events : List Event} {db : Db} {e : Event}

/-- The rows have hashes of their own, those with which a password was changed are used, and rows stay. -/
structure Tracked (events : List Event) (db : Db) : Prop where
  distinct : (db.tokens.map fun row => row.tokenHash).Nodup
  used : ∀ row ∈ db.tokens, row.usedAt.isSome = true ↔ ∃ e ∈ events, changes row.tokenHash e = true
  changed : ∀ e ∈ events, ∀ tokenHash, changes tokenHash e = true →
    tokenHash ∈ db.tokens.map fun row => row.tokenHash
  read : ∀ e ∈ events, ∀ tokenHash row, ⟨e.act, e.res⟩ = read tokenHash row →
    tokenHash ∈ db.tokens.map fun row => row.tokenHash

theorem exists_mem_concat {p : Event → Prop} :
    (∃ e' ∈ events ++ [e], p e') ↔ (∃ e' ∈ events, p e') ∨ p e := by
  constructor
  · rintro ⟨e', hmem, hp⟩
    rcases List.mem_append.1 hmem with hmem | hmem
    · exact .inl ⟨e', hmem, hp⟩
    · exact .inr (List.mem_singleton.1 hmem ▸ hp)
  · rintro (⟨e', hmem, hp⟩ | hp)
    · exact ⟨e', List.mem_append_left _ hmem, hp⟩
    · exact ⟨e, List.mem_append_right _ (List.mem_singleton_self e), hp⟩

theorem Tracked.idle (h : Tracked events db) (htokens : e.after.tokens = db.tokens)
    (hchanges : ∀ tokenHash, changes tokenHash e = false)
    (hread : ∀ tokenHash row, ⟨e.act, e.res⟩ = PasswordReset.read tokenHash row →
      tokenHash ∈ db.tokens.map fun row => row.tokenHash) : Tracked (events ++ [e]) e.after := by
  refine ⟨htokens ▸ h.distinct, fun row hrow => ?_, fun e' he' tokenHash hc => ?_,
    fun e' he' tokenHash row hr => ?_⟩
  · rw [htokens] at hrow
    rw [exists_mem_concat, hchanges, h.used row hrow]
    simp
  · rw [htokens]
    rcases List.mem_append.1 he' with he' | he'
    · exact h.changed e' he' tokenHash hc
    · rw [List.mem_singleton.1 he', hchanges] at hc
      cases hc
  · rw [htokens]
    rcases List.mem_append.1 he' with he' | he'
    · exact h.read e' he' tokenHash row hr
    · rw [List.mem_singleton.1 he'] at hr
      exact hread tokenHash row hr

theorem Tracked.stored (h : Tracked events db) {row : NewToken} (now : Int) (hact : e.act = .insertToken row)
    (hchanges : ∀ tokenHash, changes tokenHash e = false)
    (htokens : e.after.tokens = db.tokens ++ [⟨row, none, now⟩])
    (hnew : row.tokenHash ∉ db.tokens.map fun row => row.tokenHash) : Tracked (events ++ [e]) e.after := by
  have hsub : ∀ tokenHash, (tokenHash ∈ db.tokens.map fun row => row.tokenHash) →
      tokenHash ∈ e.after.tokens.map fun row => row.tokenHash := by
    intro tokenHash hmem
    rw [htokens, List.map_append]
    exact List.mem_append_left _ hmem
  refine ⟨?_, fun row' hrow => ?_, fun e' he' tokenHash hc => ?_, fun e' he' tokenHash row hr => ?_⟩
  · rw [htokens, List.map_append]
    refine List.nodup_append.2 ⟨h.distinct, List.nodup_singleton _, fun a ha b hb hab => ?_⟩
    rw [List.map_singleton, List.mem_singleton] at hb
    exact hnew (by rw [← hb, ← hab]; exact ha)
  · rw [exists_mem_concat, hchanges]
    rw [htokens] at hrow
    rcases List.mem_append.1 hrow with hrow | hrow
    · rw [h.used row' hrow]
      simp
    · rw [List.mem_singleton.1 hrow]
      constructor
      · intro hused
        cases hused
      · rintro (⟨e', he', hc⟩ | hc)
        · exact absurd (h.changed e' he' _ hc) hnew
        · cases hc
  · rcases List.mem_append.1 he' with he' | he'
    · exact hsub _ (h.changed e' he' tokenHash hc)
    · rw [List.mem_singleton.1 he', hchanges] at hc
      cases hc
  · rcases List.mem_append.1 he' with he' | he'
    · exact hsub _ (h.read e' he' tokenHash row hr)
    · rw [List.mem_singleton.1 he'] at hr
      have hacts := hact.symm.trans (congrArg Sigma.fst hr)
      cases hacts

theorem map_markUsed (db : Db) (tokenHash : String) :
    ((db.markUsed tokenHash).map fun row => row.tokenHash) = db.tokens.map fun row => row.tokenHash := by
  rw [Db.markUsed, List.map_map]
  refine List.map_congr_left fun row _ => ?_
  show (if row.tokenHash = tokenHash then _ else row : ResetToken).tokenHash = _
  split <;> rfl

theorem Tracked.marked (h : Tracked events db) (tokenHash : String) (now : Int)
    (hchanges : ∀ tokenHash', changes tokenHash' e = true ↔ tokenHash' = tokenHash)
    (hread : ∀ tokenHash row, ⟨e.act, e.res⟩ ≠ PasswordReset.read tokenHash row)
    (htokens : e.after.tokens = { db with now := now }.markUsed tokenHash)
    (hmem : tokenHash ∈ db.tokens.map fun row => row.tokenHash) : Tracked (events ++ [e]) e.after := by
  have hhashes : (e.after.tokens.map fun row => row.tokenHash) = db.tokens.map fun row => row.tokenHash := by
    rw [htokens, map_markUsed]
  refine ⟨hhashes ▸ h.distinct, fun row hrow => ?_, fun e' he' tokenHash' hc => ?_,
    fun e' he' tokenHash' row hr => ?_⟩
  · rw [exists_mem_concat, hchanges]
    rw [htokens] at hrow
    obtain ⟨row', hrow', rfl⟩ := List.mem_map.1 hrow
    by_cases hsame : row'.tokenHash = tokenHash
    · simp [hsame]
    · rw [if_neg hsame, h.used row' hrow']
      simp [hsame]
  · rw [hhashes]
    rcases List.mem_append.1 he' with he' | he'
    · exact h.changed e' he' tokenHash' hc
    · rw [List.mem_singleton.1 he', hchanges] at hc
      exact hc ▸ hmem
  · rw [hhashes]
    rcases List.mem_append.1 he' with he' | he'
    · exact h.read e' he' tokenHash' row hr
    · rw [List.mem_singleton.1 he'] at hr
      exact absurd hr (hread tokenHash' row)

theorem tracked_perform (h : Tracked events db) (t : ℕ) (request : Request) (o : Meets) (act : ResetAct)
    (hnew : IsNew ⟨t, request, act, (db.perform o act).1, db, (db.perform o act).2⟩)
    (hread : ReadUnused (Pool.performed events t) act) :
    Tracked (events ++ [⟨t, request, act, (db.perform o act).1, db, (db.perform o act).2⟩]) (db.perform o act).2 := by
  let e : Event := ⟨t, request, act, (db.perform o act).1, db, (db.perform o act).2⟩
  have hidle : act.isTransaction = false → (∀ tokenHash, act ≠ .selectForUpdate tokenHash) → e.after.tokens = db.tokens →
      Tracked (events ++ [e]) e.after := by
    intro hact hselect htokens
    refine h.idle htokens (fun tokenHash => ?_) fun tokenHash row hr => ?_
    · cases act <;> first | rfl | cases hact
    · exact absurd (congrArg Sigma.fst hr) (hselect tokenHash)
  cases act with
  | selectForUpdate tokenHash =>
    refine h.idle (e := e) rfl (fun _ => rfl) fun tokenHash' row hr => ?_
    have hacts : ResetAct.selectForUpdate tokenHash = .selectForUpdate tokenHash' := congrArg Sigma.fst hr
    cases hacts
    have hfound : o.fate.answer (db.tokens.find? fun row => row.tokenHash = tokenHash) = some (some row) :=
      eq_of_heq (Sigma.mk.inj hr).2
    obtain ⟨-, hfound⟩ := Oauth.CommandFate.answer_eq_some.1 hfound
    have hsome := List.find?_some hfound.symm
    exact List.mem_map.2 ⟨row, List.mem_of_find?_eq_some hfound.symm, of_decide_eq_true hsome⟩
  | transaction tokenHash passwordHash userId activateUser =>
    by_cases happlied : o.tx.applied = true
    · obtain ⟨⟨row, -, hpast⟩, -⟩ := hread _ _ _ _ rfl
      obtain ⟨e', he', -, hr⟩ := Pool.mem_performed.1 hpast
      refine h.marked (e := e) tokenHash (db.now + o.elapsed) (fun tokenHash' => ?_) (fun _ _ hr => ?_) ?_
        (h.read e' he' tokenHash row hr)
      · show (decide (tokenHash = tokenHash') && o.tx.applied) = true ↔ _
        rw [happlied, Bool.and_true, decide_eq_true_eq, eq_comm]
      · have hacts := congrArg Sigma.fst hr
        cases hacts
      · simp [e, Db.perform, happlied]
    · refine h.idle (e := e) (by simp [e, Db.perform, happlied]) (fun tokenHash' => ?_) fun _ _ hr => ?_
      · show (decide (tokenHash = tokenHash') && o.tx.applied) = false
        rw [Bool.not_eq_true] at happlied
        rw [happlied, Bool.and_false]
      · have hacts := congrArg Sigma.fst hr
        cases hacts
  | insertToken row =>
    by_cases hfate : o.fate = .refused
    · exact hidle rfl nofun (by simp [e, Db.perform, hfate])
    · exact h.stored (e := e) (db.now + o.elapsed) rfl (fun _ => rfl) (by simp [e, Db.perform, hfate]) (hnew _ rfl)
  | now => exact hidle rfl nofun rfl
  | getPasswordRules => exact hidle rfl nofun rfl
  | hashPassword password => exact hidle rfl nofun rfl
  | countEmail email since => exact hidle rfl nofun rfl
  | countIp ip since => exact hidle rfl nofun rfl
  | selectByEmail email => exact hidle rfl nofun rfl
  | selectById userId => exact hidle rfl nofun rfl
  | generateSecureToken => exact hidle rfl nofun rfl
  | selectSiteUrl => exact hidle rfl nofun rfl
  | enqueueEmail recipient userId payload => exact hidle rfl nofun rfl
  | writeAccounts change => exact hidle rfl nofun rfl

end Rows

/-! ### Every run -/

section Runs

variable {env : Env} {ipText : IpAddr → String} {accounts : Accounts} {now : Int} {inputs : List Input}
  {requests : Requests}

theorem readUnused_of_run (hrun : Run.exec (step env ipText) (start accounts now) inputs = some requests) :
    Run.Each (fun older e => ReadUnused (Pool.performed older e.task) e.act) (trace env ipText accounts now inputs) :=
  Pool.follows_of_run (W := fun _ => ReadUnused) follows_run hrun

theorem tracked_of_run (hrun : Run.exec (step env ipText) (start accounts now) inputs = some requests)
    (hnew : ∀ e ∈ trace env ipText accounts now inputs, IsNew e) :
    Run.Each (fun older e => Tracked older e.before) (trace env ipText accounts now inputs) := by
  refine (Pool.shared_invariant (I := Tracked) (Q := fun older e => IsNew e ∧ ReadUnused (Pool.performed older e.task) e.act)
    (fun es db t request o act h hq => tracked_perform h t request o act hq.1 hq.2) ?_ ?_ hrun).2
  · intro older e newer hsplit
    refine ⟨hnew e ?_, readUnused_of_run hrun older e newer hsplit⟩
    rw [show trace env ipText accounts now inputs = _ from hsplit]
    exact List.mem_append_right _ List.mem_cons_self
  · exact ⟨List.nodup_nil, fun row hrow => (by cases hrow), fun e he => (by cases he),
      fun e he => (by cases he)⟩

theorem changes_of_uses (hrun : Run.exec (step env ipText) (start accounts now) inputs = some requests) {t : ℕ}
    {token : String} (h : Uses env (trace env ipText accounts now inputs) requests t token) :
    ∃ e ∈ trace env ipText accounts now inputs, e.task = t ∧ changes (env.hashToken token) e = true := by
  rcases h with h | ⟨newPassword, answer, hl⟩
  · exact h
  · have hpath : (resetPassword env token newPassword >>= fun userId => pure (.passwordChanged userId)).run.Path _ (.ok answer) :=
      Pool.path_of_run hrun hl
    rcases (Prog.path_run_bind _ _).1 hpath with ⟨userId, es₁, es₂, heq, hreset, -⟩ | ⟨e, he, -⟩
    · obtain ⟨passwordHash, activateUser, hmem⟩ := path_resetPassword hreset
      have hperformed := List.mem_append_left es₂ hmem
      rw [← heq] at hperformed
      obtain ⟨e, he, ht, hact⟩ := Pool.mem_performed.1 hperformed
      refine ⟨e, he, ht, ?_⟩
      obtain ⟨task, request, act, res, before, after⟩ := e
      cases hact
      simp [changes, TxFate.applied]
    · cases he

/-- In any run, a token is for one request exactly if every transaction that takes effect finds its row unused. -/
theorem singleUse_iff (env : Env) (ipText : IpAddr → String) (accounts : Accounts) (now : Int) (inputs : List Input)
    (requests : Requests) (hrun : Run.exec (step env ipText) (start accounts now) inputs = some requests)
    (hnew : ∀ e ∈ trace env ipText accounts now inputs, IsNew e) :
    SingleUse env (trace env ipText accounts now inputs) requests ↔
      ∀ e ∈ trace env ipText accounts now inputs, FindsUnused env e := by
  have htracked := tracked_of_run hrun hnew
  constructor
  · intro hsingle e he token hchanges
    obtain ⟨older, newer, hsplit⟩ := List.append_of_mem he
    have hrows := htracked older e newer hsplit
    obtain ⟨passwordHash, userId, activateUser, hact⟩ := transaction_of_changes hchanges
    obtain ⟨⟨row, -, hpast⟩, honly⟩ := readUnused_of_run hrun older e newer hsplit _ _ _ _ hact
    obtain ⟨e', he', -, hr⟩ := Pool.mem_performed.1 hpast
    obtain ⟨row', hrow', hhash⟩ := List.mem_map.1 (hrows.read e' he' _ row hr)
    refine ⟨row', hrow', hhash, ?_⟩
    -- a row that is used was used by another request
    by_contra hused
    obtain ⟨first, hfirst, hchanges'⟩ := (hrows.used row' hrow').1 (Option.isSome_iff_ne_none.2 hused)
    rw [hhash] at hchanges'
    have hmem : first ∈ trace env ipText accounts now inputs := by
      rw [hsplit]
      exact List.mem_append_left _ hfirst
    have htask : first.task = e.task :=
      hsingle token _ _ (.inl ⟨first, hmem, rfl, hchanges'⟩) (.inl ⟨e, he, rfl, hchanges⟩)
    have hnot : first.act.isTransaction = false := honly _ (Pool.mem_performed.2 ⟨first, hfirst, htask, rfl⟩)
    obtain ⟨_, _, _, hact'⟩ := transaction_of_changes hchanges'
    rw [hact'] at hnot
    cases hnot
  · intro hfinds token t t' ht ht'
    obtain ⟨e, he, rfl, hchanges⟩ := changes_of_uses hrun ht
    obtain ⟨e', he', rfl, hchanges'⟩ := changes_of_uses hrun ht'
    -- the one that comes later finds the row used
    have hlater : ∀ first second older newer, trace env ipText accounts now inputs = older ++ second :: newer →
        first ∈ older → changes (env.hashToken token) first = true → ¬ changes (env.hashToken token) second = true := by
      intro first second older newer hsplit hfirst hc hc'
      have hmem : second ∈ trace env ipText accounts now inputs := by
        rw [hsplit]
        exact List.mem_append_right _ List.mem_cons_self
      obtain ⟨row, hrow, hhash, hunused⟩ := hfinds second hmem token hc'
      have hused := ((htracked older second newer hsplit).used row hrow).2 ⟨first, hfirst,
        by rw [hhash]; exact hc⟩
      rw [hunused] at hused
      cases hused
    rcases Run.older_or_older he he' with rfl | ⟨older, newer, hsplit, hfirst⟩ | ⟨older, newer, hsplit,
      hfirst⟩
    · rfl
    · exact absurd hchanges' (hlater e e' older newer hsplit hfirst hchanges)
    · exact absurd hchanges (hlater e' e older newer hsplit hfirst hchanges')

/-- For texts in lower case, and the hash of `token`. -/
def plain : Env :=
  ⟨⟨id, id, fun _ => true⟩, ⟨fun _ => true, fun _ => true, fun _ => true, fun _ => true⟩,
    fun _ => "3c469e9d6c5875d37a43f353d4f88e61fcf812c66eee3457465a40b0da4153e0"⟩

def fine : Meets :=
  ⟨0, .answered, .committed, ⟨0, false, false, false, false⟩, some "hash", "token",
    some "https://example.org", some 0⟩

/-- Ada has an account that has no password yet. -/
def ada : Accounts :=
  ⟨(∅ : Assoc Uuid User).insert 0
    ⟨none, "ada", "ada@example.org", none, none, false, "member", false, none, none, none, none⟩⟩

/-- A first password for Ada: a token is stored, and two requests present it. -/
def setup (rest : List Input) : List Input :=
  .spawn 0 (.sendPasswordSetupEmail 0 "ada" "ada@example.org" "https://example.org" (.v4 0)) ::
    (List.replicate 5 (.step 0 fine) ++ .spawn 1 (.resetPassword "token" "first") ::
      .spawn 2 (.resetPassword "token" "second") :: rest)

/-- Both read the row before one of them marks it as used. -/
def raced : List Input := setup (List.replicate 5 [.step 1 fine, .step 2 fine]).flatten

def inTurn : List Input := setup (List.replicate 5 (.step 1 fine) ++ List.replicate 2 (.step 2 fine))

theorem raced_not_singleUse : ∃ requests, Run.exec (step plain fun _ => "") (start ada 0) raced = some requests ∧
    requests.result 1 = some (.ok (.passwordChanged ⟨0⟩)) ∧ requests.result 2 = some (.ok (.passwordChanged ⟨0⟩)) ∧
      ¬ SingleUse plain (trace plain (fun _ => "") ada 0 raced) requests :=
  ⟨_, rfl, rfl, rfl, fun h => absurd (h "token" 1 2 (.inr ⟨"first", .passwordChanged ⟨0⟩, rfl⟩)
    (.inr ⟨"second", .passwordChanged ⟨0⟩, rfl⟩)) (by decide)⟩

theorem inTurn_singleUse : ∃ requests, Run.exec (step plain fun _ => "") (start ada 0) inTurn = some requests ∧
    requests.result 1 = some (.ok (.passwordChanged ⟨0⟩)) ∧ requests.result 2 = some (.error .tokenAlreadyUsed) ∧
      (SingleUse plain (trace plain (fun _ => "") ada 0 inTurn) requests ↔
        ∀ e ∈ trace plain (fun _ => "") ada 0 inTurn, FindsUnused plain e) := by
  refine ⟨_, rfl, rfl, rfl, ?_⟩
  exact singleUse_iff plain (fun _ => "") ada 0 inTurn _ rfl (by decide +kernel)

end Runs

end PasswordReset

end Rustchat
