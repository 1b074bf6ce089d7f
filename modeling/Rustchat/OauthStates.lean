import Rustchat.OauthLogin

/-!
# The states of OAuth logins (`api/oauth.rs`)

A callback reads the state that it presents with one command and deletes it with the next. While no callback reads a
state that another one has found and not yet deleted, a state lets one callback proceed for each time that it was issued
(`Oauth.States.oneTime_of_run`); otherwise two callbacks proceed with one state (`Oauth.States.proceed_twice`).
-/

namespace Rustchat

namespace Oauth

inductive OauthRequest
  | login (providerKey : String) (query : OAuthLoginQuery) (drawn : LoginDrawn)
  | callback (production : Bool) (providerKey : String) (query : OAuthCallbackQuery) (exchangeCode : String)

def OauthRequest.run (crates : Crates) : OauthRequest → Prog OauthAct OauthAct.Res (Except AppError Redirect)
  | login providerKey query drawn => (oauthLogin crates providerKey query drawn).run
  | callback production providerKey query exchangeCode => (oauthCallback production providerKey query exchangeCode).run

def OauthRequest.Presents (oauthState : String) : OauthRequest → Prop
  | login _ _ _ => False
  | callback _ _ query _ => query.state = some oauthState

/-- What a step meets: Redis, the database and the provider. -/
structure OauthMeets where
  redis : ExchangeStore.Meets
  config : Option (Option ProviderConfig)
  appCustomUrlSchemes : List String
  siteUrl : String
  discovered : Except String String
  signedIn : Except AppError SignedIn

def OauthAct.perform (o : OauthMeets) (act : OauthAct) (s : ExchangeStore) : act.Res × ExchangeStore :=
  let later := { s with now := s.now + o.redis.elapsed }
  match act with
  | .exchange act => ExchangeStore.perform o.redis act s
  | .get key => (o.redis.fate.answer (later.live key), later)
  | .del key =>
    (o.redis.fate.answer (), if o.redis.fate = .refused then later
      else { later with codes := later.codes.erase key })
  | .config _ => (o.config, later)
  | .appCustomUrlSchemes => (o.appCustomUrlSchemes, later)
  | .siteUrl => (o.siteUrl, later)
  | .discover _ => (o.discovered, later)
  | .signIn _ _ _ _ _ _ => (o.signedIn, later)

namespace States

abbrev Requests := Pool ExchangeStore OauthRequest OauthAct OauthAct.Res (Except AppError Redirect)

abbrev Input := Pool.Input OauthRequest OauthMeets

abbrev Event := Pool.Event ExchangeStore OauthRequest OauthAct OauthAct.Res

abbrev step (crates : Crates) : Requests → Input → Option Requests :=
  Pool.step (OauthRequest.run crates) fun _ => OauthAct.perform

def start (now : ℕ) : Requests := Pool.start ⟨∅, now⟩

abbrev trace (crates : Crates) (now : ℕ) (inputs : List Input) : List Event :=
  Pool.trace (OauthRequest.run crates) (fun _ => OauthAct.perform) (start now) inputs

/-- A value is stored under the key. -/
def issues (key : String) (e : Event) : Bool :=
  match e.act with
  | .exchange (.setEx key' _ _) => key' = key
  | _ => false

def finds (key : String) : Event → Option String
  | ⟨_, _, .get key', some (some value), _, _⟩ => if key' = key then some value else none
  | _ => none

/-- A callback with the state has passed the check, and goes on to the configuration of its provider. -/
def Proceeds (oauthState : String) (e : Event) : Prop :=
  e.label.Presents oauthState ∧ ∃ providerKey, e.act = .config providerKey

/-- The last that a request has done is to find the value under the key. -/
def Holds (older : List Event) (t : ℕ) (key : String) : Prop :=
  ∃ e, Pool.lastOf older t = some e ∧ (finds key e).isSome = true

/-- What is found is not found by another request already, that has still to delete it. -/
def Undisturbed (older : List Event) (e : Event) : Prop :=
  ∀ key, (finds key e).isSome = true → ∀ t ≠ e.task, ¬ Holds older t key

structure Timely (older : List Event) (oauthState : String) (e : Event) : Prop where
  read : ∃ before found after payload, older = before ++ found :: after ∧ found.task = e.task ∧
    finds (oauthStateKey oauthState) found = some (OAuthStatePayload.serialize payload) ∧
    -- it was issued before it was read, and had not expired
    (∃ issued ∈ before, issued.act =
        .exchange (.setEx (oauthStateKey oauthState) payload.serialize oauthStateTtlSeconds) ∧
      found.after.now ≤ issued.after.now + oauthStateTtlSeconds * 1000) ∧
    -- nor had it when its age was checked
    ∃ now, ⟨.exchange .timestamp, now⟩ ∈ Pool.performed after e.task ∧ now - payload.createdAt ≤ oauthStateTtlSeconds

structure OneTime (events : List Event) : Prop where
  -- not more callbacks proceed with a state than it was issued times
  once : ∀ oauthState (ts : List ℕ), ts.Nodup → (∀ t ∈ ts, ∃ e ∈ events, e.task = t ∧ Proceeds oauthState e) →
    ts.length ≤ events.countP (issues (oauthStateKey oauthState))
  timely : Run.Each (fun older e => ∀ oauthState, Proceeds oauthState e → Timely older oauthState e) events

section Programs

variable {crates : Crates} {production : Bool} {providerKey code exchangeCode : String}
    {storedState : OAuthStatePayload} {config : ProviderConfig} {W : List (Sigma OauthAct.Res) → OauthAct → Prop}

theorem always_exchanging {α : Type} {guar : ExchangeAct → Prop} {p : ExchangeProg AppError α}
    (hp : p.run.Safe guar (fun _ _ => True) fun _ => True) (hW : ∀ past act, guar act → W past (.exchange act)) :
    Prog.Always W (exchanging p) := by
  have hexpand : ∀ q : Prog ExchangeAct ExchangeAct.Res (Except AppError α), q.Safe guar (fun _ _ => True) (fun _ => True) →
      ∀ past, (q.expand access).Follows W past := by
    intro q
    induction q with
    | done a => exact fun _ _ => trivial
    | perform act next ih => exact fun h past => ⟨hW past act h.1, fun r => ih r (h.2 r trivial) _⟩
  exact hexpand p.run hp

def OfCallback : ExchangeAct → Prop
  | .connect | .timestamp => True
  | .setEx key _ _ => ∃ code, key = codeKey code
  | _ => False

theorem safe_createExchangeCode {user : SignedIn} {challenge : Option SsoExchangeChallenge} :
    (createExchangeCodeWithSso user.id user.email user.role user.orgId challenge code).run.Safe OfCallback
      (fun _ _ => True) fun _ => True := by
  refine ⟨trivial, fun now _ => ⟨trivial, fun connected _ => ?_⟩⟩
  cases connected with
  | none => trivial
  | some u =>
    refine ⟨⟨code, rfl⟩, fun stored _ => ?_⟩
    cases stored with
    | none => trivial
    | some u => trivial

section Callback

variable (hexchange : ∀ past act, OfCallback act → W past (.exchange act))
include hexchange

theorem always_access (act : ExchangeAct) (h : OfCallback act) :
    Prog.Always W (exchanging (ExceptT.lift (Prog.call act))) := fun past => ⟨hexchange past act h, fun _ => trivial⟩

theorem always_consumeState {oauthState : String} (hget : ∀ past key, W past (.get key))
    (hdel : ∀ past key, W past (.del key)) : Prog.Always W (consumeState providerKey oauthState) := by
  refine Prog.Always.bind (always_access hexchange .connect trivial) fun connected => ?_
  split
  · exact Prog.always_throw _
  · refine Prog.Always.bind (fun past => ⟨hget past _, fun _ => trivial⟩) fun json => ?_
    split
    · exact Prog.always_throw _
    · refine Prog.Always.bind (fun past => ⟨hdel past _, fun _ => trivial⟩) fun deleted => ?_
      split
      · exact Prog.always_throw _
      · split
        · exact Prog.always_throw _
        · split
          · exact Prog.always_throw _
          · split
            · exact Prog.always_throw _
            · refine Prog.Always.bind (always_access hexchange .timestamp trivial) fun now => ?_
              split
              · exact Prog.always_throw _
              · exact Prog.always_pure _

theorem always_completeCallback (hsite : ∀ past, W past .siteUrl)
    (hsign : ∀ past config code callbackUrl codeVerifier nonce,
      W past (.signIn providerKey config code callbackUrl codeVerifier nonce)) :
    Prog.Always W (completeCallback production providerKey code exchangeCode storedState config) := by
  unfold completeCallback
  split
  · exact Prog.always_throw _
  · exact Prog.always_throw _
  · exact Prog.always_throw _
  · refine Prog.Always.bind (fun past => ⟨hsite past, fun _ => trivial⟩) fun site => ?_
    refine Prog.Always.bind (fun past => ⟨hsign past _ _ _ _ _, fun _ => trivial⟩) fun signed => ?_
    split
    · exact Prog.always_throw _
    · next user =>
      rw [createExchangeCode_eq]
      refine (always_exchanging safe_createExchangeCode hexchange).bind fun exchangeCode => ?_
      exact Prog.Always.bind (fun past => ⟨hsite past, fun _ => trivial⟩) fun site => Prog.always_pure _

end Callback

def CheckedFirst (request : OauthRequest) (past : List (Sigma OauthAct.Res)) (act : OauthAct) : Prop :=
  ∀ providerKey, act = .config providerKey → ∀ oauthState, request.Presents oauthState → ∃ text stored, ∃ now : Int,
    past = [⟨.exchange .connect, (some () : Option Unit)⟩, found oauthState text,
      ⟨.del (oauthStateKey oauthState), (some () : Option Unit)⟩, ⟨.exchange .timestamp, now⟩] ∧
    OAuthStatePayload.deserialize text = some stored ∧ now - stored.createdAt ≤ oauthStateTtlSeconds

theorem checkedFirst_run (request : OauthRequest) : (request.run crates).Follows (CheckedFirst request) [] := by
  cases request with
  | login providerKey query drawn => exact Prog.follows_of_forall (fun _ _ _ _ _ h => h.elim) _ _
  | callback production providerKey query exchangeCode =>
    show (oauthCallback production providerKey query exchangeCode).run.Follows _ _
    unfold oauthCallback
    split
    · trivial
    · split
      · trivial
      · trivial
      · next code oauthState hcode hstate =>
        refine (Prog.follows_run_bind _ _).2 ⟨always_consumeState (fun _ _ _ => nofun) (fun _ _ => nofun)
          (fun _ _ => nofun) _, fun es stored hpath => ?_⟩
        obtain ⟨text, now, rfl, hread, -, hage⟩ := path_consumeState.1 hpath
        refine (Prog.follows_run_bind _ _).2 ⟨⟨fun key hkey oauthState' hpresents => ?_, fun row => ?_⟩, fun _ config _ =>
          always_completeCallback (fun _ _ _ => nofun) (fun _ => nofun) (fun _ _ _ _ _ _ => nofun) _⟩
        · obtain rfl := Option.some.inj (hstate.symm.trans hpresents)
          exact ⟨text, stored, now, rfl, hread, hage⟩
        · rcases row with - | - | row
          · trivial
          · trivial
          · trivial

/-- Under the key of a state, payloads are stored only, for as long as a state lives. -/
def StatesOnly (act : OauthAct) : Prop :=
  ∀ oauthState value seconds, act = .exchange (.setEx (oauthStateKey oauthState) value seconds) →
    seconds = oauthStateTtlSeconds ∧ ∃ payload : OAuthStatePayload, value = payload.serialize

theorem codeKey_ne (code oauthState : String) : codeKey code ≠ oauthStateKey oauthState := by
  intro h
  have hlist := congrArg String.toList h
  simp [codeKey, oauthStateKey, oauthCodePrefix, oauthStatePrefix] at hlist

theorem statesOnly_run (request : OauthRequest) : (request.run crates).Follows (fun _ => StatesOnly) [] := by
  have hexchange : ∀ act, OfCallback act → StatesOnly (.exchange act) := by
    rintro act h oauthState value seconds heq
    cases heq
    obtain ⟨code, hkey⟩ := h
    exact absurd hkey.symm (codeKey_ne code oauthState)
  cases request with
  | login providerKey query drawn =>
    refine Prog.Follows.mono follows_oauthLogin fun past act h oauthState value seconds heq => ?_
    obtain ⟨hseconds, providerType, redirect, now, hvalue, -⟩ := h _ _ _ heq
    exact ⟨hseconds, _, hvalue⟩
  | callback production providerKey query exchangeCode =>
    show (oauthCallback production providerKey query exchangeCode).run.Follows _ _
    unfold oauthCallback
    split
    · trivial
    · split
      · trivial
      · trivial
      · refine Prog.Always.bind (always_consumeState (fun _ => hexchange) (fun _ _ => nofun) (fun _ _ => nofun))
          (fun stored => ?_) _
        refine Prog.Always.bind (always_activeConfig fun past act h oauthState value seconds heq => ?_) fun config => ?_
        · rw [heq] at h
          exact h.elim
        · exact always_completeCallback (fun _ => hexchange) (fun _ => nofun) (fun _ _ _ _ _ _ => nofun)

end Programs

section Store

variable {o : OauthMeets} {act : OauthAct} {s : ExchangeStore} {events : List Event} {key value : String}

theorem codes_perform (o : OauthMeets) (act : OauthAct) (s : ExchangeStore) : (∃ key value seconds, act = .exchange (.setEx key value seconds) ∧
      (act.perform o s).2.codes = s.codes.insert key (value, (act.perform o s).2.now + seconds * 1000)) ∨
    (∃ key, (act.perform o s).2.codes = s.codes.erase key) ∨ (act.perform o s).2.codes = s.codes := by
  cases act with
  | exchange act =>
    cases act with
    | setEx key value seconds =>
      by_cases hfate : o.redis.fate = .refused
      · exact .inr (.inr (by simp [OauthAct.perform, ExchangeStore.perform, hfate]))
      · exact .inl ⟨key, value, seconds, rfl, by simp [OauthAct.perform, ExchangeStore.perform, hfate]⟩
    | take key =>
      by_cases hfate : o.redis.fate = .refused
      · exact .inr (.inr (by simp [OauthAct.perform, ExchangeStore.perform, hfate]))
      · exact .inr (.inl ⟨key, by simp [OauthAct.perform, ExchangeStore.perform, hfate]⟩)
    | connect => exact .inr (.inr rfl)
    | timestamp => exact .inr (.inr rfl)
    | createToken payload => exact .inr (.inr rfl)
  | del key =>
    by_cases hfate : o.redis.fate = .refused
    · exact .inr (.inr (by simp [OauthAct.perform, hfate]))
    · exact .inr (.inl ⟨key, by simp [OauthAct.perform, hfate]⟩)
  | _ => exact .inr (.inr rfl)

theorem lookup_of_found (h : (OauthAct.perform o (.get key) s).1 = some (some value)) :
    ∃ expiry, s.codes.lookup key = some (value, expiry) ∧ (OauthAct.perform o (.get key) s).2.now ≤ expiry := by
  obtain ⟨-, hlive⟩ := CommandFate.answer_eq_some.1 h
  exact ExchangeStore.live_eq_some.1 hlive.symm

theorem erase_of_deleted (h : (OauthAct.perform o (.del key) s).1 = some ()) :
    (OauthAct.perform o (.del key) s).2.codes = s.codes.erase key := by
  obtain ⟨hfate, -⟩ := CommandFate.answer_eq_some.1 h
  simp [OauthAct.perform, hfate]

def Put (events : List Event) (key value : String) (expiry : ℕ) : Prop :=
  ∃ stored ∈ events, ∃ seconds, stored.act = .exchange (.setEx key value seconds) ∧
    expiry = stored.after.now + seconds * 1000

theorem Put.concat {expiry : ℕ} {e : Event} (h : Put events key value expiry) : Put (events ++ [e]) key value expiry := by
  obtain ⟨stored, hmem, hstored⟩ := h
  exact ⟨stored, List.mem_append_left _ hmem, hstored⟩

theorem finds_eq_some {e : Event} : finds key e = some value ↔
    (⟨e.act, e.res⟩ : Sigma OauthAct.Res) = ⟨.get key, (some (some value) : Option (Option String))⟩ := by
  obtain ⟨task, label, act, res, before, after⟩ := e
  constructor
  · intro h
    cases act with
    | get key' =>
      rcases res with - | - | found
      · cases h
      · cases h
      · have h : (if key' = key then some found else none) = some value := h
        split at h
        · next hkey => cases h; rw [hkey]
        · cases h
    | _ => cases h
  · intro h
    cases h
    exact if_pos rfl

variable {crates : Crates} {now : ℕ} {inputs : List Input} {requests : Requests}

def AllPut (events : List Event) (s : ExchangeStore) : Prop :=
  ∀ key value expiry, s.codes.lookup key = some (value, expiry) → Put events key value expiry

theorem allPut_perform (h : AllPut events s) (t : ℕ) (label : OauthRequest) (o : OauthMeets) (act : OauthAct) :
    AllPut (events ++ [⟨t, label, act, (act.perform o s).1, s, (act.perform o s).2⟩]) (act.perform o s).2 := by
  intro key value expiry hl
  rcases codes_perform o act s with ⟨key', value', seconds, rfl, hcodes⟩ | ⟨key', hcodes⟩ | hcodes
  · rw [hcodes] at hl
    rcases Assoc.lookup_insert_cases hl with ⟨rfl, heq⟩ | ⟨-, hl⟩
    · cases heq
      exact ⟨_, List.mem_append_right _ List.mem_cons_self, seconds, rfl, rfl⟩
    · exact (h _ _ _ hl).concat
  · rw [hcodes] at hl
    exact (h _ _ _ (Assoc.lookup_erase_cases hl).2).concat
  · rw [hcodes] at hl
    exact (h _ _ _ hl).concat

theorem put_of_found (hrun : Run.exec (step crates) (start now) inputs = some requests) :
    Run.Each (fun older e => ∀ key value, finds key e = some value → ∃ expiry, Put older key value expiry ∧
      e.after.now ≤ expiry) (trace crates now inputs) := by
  have hbefore := (Pool.shared_invariant (I := AllPut) (Q := fun _ _ => True)
    (fun _ _ t label o act h _ => allPut_perform h t label o act) (fun _ _ _ _ => trivial)
    (fun _ _ _ hl => (by cases hl)) hrun).2
  rintro older e newer heq key value hfinds
  have hmem : e ∈ trace crates now inputs := heq ▸ List.mem_append_right older List.mem_cons_self
  obtain ⟨o, hres, hafter⟩ := Pool.sem_of_run hrun e hmem
  obtain ⟨task, label, act, res, before, after⟩ := e
  cases finds_eq_some.1 hfinds
  obtain ⟨expiry, hl, hle⟩ := lookup_of_found hres.symm
  exact ⟨expiry, hbefore older _ newer heq key value expiry hl, by rw [hafter]; exact hle⟩

theorem timely_of_run (hrun : Run.exec (step crates) (start now) inputs = some requests) :
    Run.Each (fun older e => ∀ oauthState, Proceeds oauthState e → Timely older oauthState e) (trace crates now inputs) := by
  rintro older e newer heq oauthState ⟨hpresents, providerKey, hact⟩
  obtain ⟨text, stored, now', hperformed, hread, hage⟩ :=
    Pool.follows_of_run checkedFirst_run hrun older e newer heq providerKey hact oauthState hpresents
  obtain ⟨before, found, after, rfl, htask, hfound, hafter⟩ :=
    Pool.exists_of_performed (show Pool.performed older e.task = [_] ++ _ :: _ from hperformed)
  have hfinds : finds (oauthStateKey oauthState) found = some text := finds_eq_some.2 hfound
  have hsplit : trace crates now inputs = before ++ found :: (after ++ e :: newer) := by
    rw [heq, List.append_assoc, List.cons_append]
  obtain ⟨expiry, ⟨issued, hmem, seconds, hissued, rfl⟩, hle⟩ :=
    put_of_found hrun before found _ hsplit _ text hfinds
  obtain ⟨before', after', rfl⟩ := List.append_of_mem hmem
  obtain ⟨rfl, payload, rfl⟩ := Pool.follows_of_run (W := fun _ _ => StatesOnly) statesOnly_run hrun before' issued _
    (hsplit.trans (by rw [List.append_assoc, List.cons_append])) _ _ _ hissued
  obtain rfl := OAuthStatePayload.eq_of_deserialize hread
  refine ⟨_, found, after, payload, rfl, htask, hfinds, ⟨issued, hmem, hissued, hle⟩, now', ?_, hage⟩
  rw [hafter]
  exact List.mem_cons_of_mem _ List.mem_cons_self

end Store

/-! ### How far a callback is -/

inductive Phase
  | fresh
  -- has read what is under the key, and has still to delete it
  | read (key : String) (found : Bool)
  -- has found what is under the key, and deleted it
  | cleared (key : String)
  | over

def Phase.next (g : Phase) : (act : OauthAct) → act.Res → Phase
  | .get key, (some value : Option (Option String)) => .read key value.isSome
  | .get _, (none : Option (Option String)) => .over
  | .del _, (r : Option Unit) =>
    match g, r with
    | .read key true, some () => .cleared key
    | _, _ => .over
  | _, _ => g

/-- Whether something is found under the key, and not lost again. -/
def Phase.Has (g : Phase) (key : String) : Prop := g = .read key true ∨ g = .cleared key

def MayDo (request : OauthRequest) (g : Phase) (act : OauthAct) : Prop :=
  match act with
  | .get _ => g = .fresh
  | .del key => ∃ found, g = .read key found
  | .config _ => (∀ key found, g ≠ .read key found) ∧
      ∀ oauthState, request.Presents oauthState → g = .cleared (oauthStateKey oauthState)
  | _ => ∀ key found, g ≠ .read key found

def Quiet (act : OauthAct) : Prop := (∀ key, act ≠ .get key) ∧ ∀ key, act ≠ .del key

theorem next_of_quiet {g : Phase} {act : OauthAct} (h : Quiet act) (r : act.Res) : g.next act r = g := by
  cases act with
  | get key => exact absurd rfl (h.1 key)
  | del key => exact absurd rfl (h.2 key)
  | _ => rfl

theorem mayDo_of_quiet {request : OauthRequest} {g : Phase} {act : OauthAct} (h : Quiet act)
    (hread : ∀ key found, g ≠ .read key found)
    (hclear : ∀ oauthState, request.Presents oauthState → g = .cleared (oauthStateKey oauthState)) :
    MayDo request g act := by
  cases act with
  | get key => exact absurd rfl (h.1 key)
  | del key => exact absurd rfl (h.2 key)
  | config providerKey => exact ⟨hread, hclear⟩
  | _ => exact hread

section Phases

variable {crates : Crates} {request : OauthRequest}

theorem heeds_consumeState {providerKey oauthState : String} :
    Prog.Heeds (MayDo request) Phase.next (consumeState providerKey oauthState)
      (fun _ g => g = .cleared (oauthStateKey oauthState)) .fresh := by
  refine Prog.heeds_call.2 ⟨fun _ _ => nofun, fun connected => ?_⟩
  cases connected with
  | none => exact Prog.heeds_throw _
  | some u =>
    refine Prog.heeds_call.2 ⟨rfl, fun json => ?_⟩
    cases json with
    | none => exact Prog.heeds_throw _
    | some json =>
      refine Prog.heeds_call.2 ⟨⟨_, rfl⟩, fun deleted => ?_⟩
      cases deleted with
      | none => exact Prog.heeds_throw _
      | some u =>
        cases json with
        | none => exact Prog.heeds_throw _
        | some text =>
          dsimp only
          split
          · exact Prog.heeds_throw _
          · split
            · exact Prog.heeds_throw _
            · refine Prog.heeds_call.2 ⟨fun _ _ => nofun, fun now => ?_⟩
              split
              · exact Prog.heeds_throw _
              · exact Prog.heeds_pure rfl

theorem quiet_elsewhere {act : OauthAct} (h : act.Elsewhere) : Quiet act := by
  cases act with
  | get key => exact h.elim
  | del key => exact h.elim
  | _ => exact ⟨nofun, nofun⟩

theorem quiet_exchange (act : ExchangeAct) : Quiet (.exchange act) := ⟨nofun, nofun⟩

theorem quiet_oauthLogin {providerKey : String} {query : OAuthLoginQuery} {drawn : LoginDrawn} :
    Prog.Always (fun _ => Quiet) (oauthLogin crates providerKey query drawn) := by
  have helsewhere : ∀ (past : List (Sigma OauthAct.Res)) act, act.Elsewhere → Quiet act := fun _ _ => quiet_elsewhere
  refine (always_activeConfig helsewhere).bind fun config => ?_
  split
  · exact Prog.always_throw _
  · exact Prog.always_throw _
  · refine (always_mobileRedirectTo helsewhere).bind fun redirect => ?_
    refine Prog.Always.bind (fun past => ⟨quiet_exchange _, fun _ => trivial⟩) fun now => ?_
    refine Prog.Always.bind ?_ fun _ => (always_authUrl helsewhere).bind fun location => Prog.always_pure _
    refine Prog.Always.bind (fun past => ⟨quiet_exchange _, fun _ => trivial⟩) fun connected => ?_
    split
    · exact Prog.always_throw _
    · refine Prog.Always.bind (fun past => ⟨quiet_exchange _, fun _ => trivial⟩) fun stored => ?_
      split
      · exact Prog.always_throw _
      · exact Prog.always_pure _

theorem quiet_finishCallback {production : Bool} {providerKey code exchangeCode : String}
    {storedState : OAuthStatePayload} :
    Prog.Always (fun _ => Quiet) (finishCallback production providerKey code exchangeCode storedState) :=
  (always_activeConfig fun _ _ => quiet_elsewhere).bind fun _ =>
    always_completeCallback (fun _ act _ => quiet_exchange act) (fun _ => ⟨nofun, nofun⟩)
      fun _ _ _ _ _ _ => ⟨nofun, nofun⟩

theorem ghost_run (request : OauthRequest) :
    (request.run crates).Ghost (MayDo request) Phase.next (fun _ _ => True) .fresh := by
  cases request with
  | login providerKey query drawn =>
    have hstill : ∀ act, Quiet act → MayDo (.login providerKey query drawn) .fresh act ∧
        ∀ r, Phase.next .fresh act r = .fresh :=
      fun act h => ⟨mayDo_of_quiet h (fun _ _ => nofun) fun _ hpresents => False.elim hpresents, next_of_quiet h⟩
    exact (Prog.Follows.still (quiet_oauthLogin []) hstill).mono fun _ _ _ => trivial
  | callback production providerKey query exchangeCode =>
    show (oauthCallback production providerKey query exchangeCode).run.Ghost _ _ _ _
    unfold oauthCallback
    split
    · trivial
    · split
      · trivial
      · trivial
      · next code oauthState hcode hstate =>
        have hpresents : ∀ oauthState',
            (OauthRequest.callback production providerKey query exchangeCode).Presents oauthState' →
            Phase.cleared (oauthStateKey oauthState) = .cleared (oauthStateKey oauthState') := by
          intro oauthState' h
          rw [Option.some.inj (hstate.symm.trans h)]
        have hstill : ∀ act, Quiet act → MayDo (.callback production providerKey query exchangeCode)
            (.cleared (oauthStateKey oauthState)) act ∧ ∀ r, Phase.next (.cleared (oauthStateKey oauthState)) act r =
              .cleared (oauthStateKey oauthState) :=
          fun act h => ⟨mayDo_of_quiet h (fun _ _ => nofun) hpresents, next_of_quiet h⟩
        have hfinish : ∀ storedState g, g = .cleared (oauthStateKey oauthState) →
            Prog.Heeds (MayDo (.callback production providerKey query exchangeCode)) Phase.next
              (finishCallback production providerKey code exchangeCode storedState) (fun _ _ => True) g := by
          rintro storedState g rfl
          exact (Prog.Follows.still (quiet_finishCallback []) hstill).mono fun _ _ _ _ _ => trivial
        exact Prog.Ghost.mono (heeds_consumeState.bind hfinish) fun _ _ _ => trivial

end Phases

/-! ### Every state lets one callback proceed -/

/-- Callbacks that have found the same state can be told apart by the number of times that it was issued when they found
it: `tag`. -/
structure Tagged (issued : String → ℕ) (stored : String → Prop) (ghost : ℕ → Phase) (tag : ℕ → ℕ) : Prop where
  range : ∀ t key, (ghost t).Has key → 1 ≤ tag t ∧ tag t ≤ issued key
  -- what is stored was stored after the last callback has cleared it
  later : ∀ key, stored key → 1 ≤ issued key ∧ ∀ t, ghost t = .cleared key → tag t < issued key
  apart : ∀ t t' key, ghost t = .cleared key → (ghost t').Has key → tag t = tag t' → t = t'
  alone : ∀ t t' key, ghost t = .read key true → ghost t' = .read key true → t = t'

namespace Tagged

variable {issued issued' : String → ℕ} {stored stored' : String → Prop} {ghost ghost' : ℕ → Phase} {tag : ℕ → ℕ} {t : ℕ}
    {key : String}

theorem mono (h : Tagged issued stored ghost tag) (hghost : ∀ t key, (ghost' t).Has key → ghost' t = ghost t)
    (hissued : ∀ key, issued key ≤ issued' key) (hstored : ∀ key, stored' key → stored key ∨ issued key < issued' key) :
    Tagged issued' stored' ghost' tag := by
  have hhas : ∀ t key, (ghost' t).Has key → (ghost t).Has key := fun t key ht => hghost t key ht ▸ ht
  have hcleared : ∀ t key, ghost' t = .cleared key → ghost t = .cleared key :=
    fun t key ht => (hghost t key (.inr ht)).symm.trans ht
  have hread : ∀ t key, ghost' t = .read key true → ghost t = .read key true :=
    fun t key ht => (hghost t key (.inl ht)).symm.trans ht
  refine ⟨fun t key ht => ?_, fun key hkey => ?_, fun t t' key ht ht' => ?_, fun t t' key ht ht' => ?_⟩
  · obtain ⟨hone, hle⟩ := h.range t key (hhas t key ht)
    exact ⟨hone, hle.trans (hissued key)⟩
  · rcases hstored key hkey with hkey | hlt
    · obtain ⟨hone, htags⟩ := h.later key hkey
      exact ⟨hone.trans (hissued key), fun t ht => (htags t (hcleared t key ht)).trans_le (hissued key)⟩
    · exact ⟨Nat.one_le_of_lt hlt, fun t ht => (h.range t key (.inr (hcleared t key ht))).2.trans_lt hlt⟩
  · exact h.apart t t' key (hcleared t key ht) (hhas t' key ht')
  · exact h.alone t t' key (hread t key ht) (hread t' key ht')

theorem find (h : Tagged issued stored ghost tag) (hstored : stored key)
    (hfree : ∀ t' ≠ t, ghost t' ≠ .read key true) :
    Tagged issued stored (Function.update ghost t (.read key true)) (Function.update tag t (issued key)) := by
  obtain ⟨hone, htags⟩ := h.later key hstored
  have hcleared : ∀ t' key', Function.update ghost t (.read key true) t' = .cleared key' → t' ≠ t ∧ ghost t' = .cleared key' := by
    intro t' key' ht'
    rcases eq_or_ne t' t with rfl | hne
    · rw [Function.update_self] at ht'
      cases ht'
    · rw [Function.update_of_ne hne] at ht'
      exact ⟨hne, ht'⟩
  refine ⟨fun t' key' ht' => ?range, fun key' hkey' => ?later, fun t₁ t₂ key' h₁ h₂ => ?apart, fun t₁ t₂ key' h₁ h₂ => ?alone⟩
  case range =>
    rcases eq_or_ne t' t with rfl | hne
    · rw [Function.update_self] at ht' ⊢
      rcases ht' with heq | heq
      · cases heq
        exact ⟨hone, le_rfl⟩
      · cases heq
    · rw [Function.update_of_ne hne] at ht' ⊢
      exact h.range t' key' ht'
  case later =>
    refine ⟨(h.later key' hkey').1, fun t' ht' => ?_⟩
    obtain ⟨hne, ht'⟩ := hcleared t' key' ht'
    rw [Function.update_of_ne hne]
    exact (h.later key' hkey').2 t' ht'
  case apart =>
    obtain ⟨hne₁, hold⟩ := hcleared t₁ key' h₁
    rw [Function.update_of_ne hne₁]
    rcases eq_or_ne t₂ t with rfl | hne₂
    · rw [Function.update_self] at h₂ ⊢
      rcases h₂ with heq | heq
      · cases heq
        exact fun htag => absurd htag (htags t₁ hold).ne
      · cases heq
    · rw [Function.update_of_ne hne₂] at h₂ ⊢
      exact h.apart t₁ t₂ key' hold h₂
  case alone =>
    rcases eq_or_ne t₁ t with rfl | hne₁
    · rw [Function.update_self] at h₁
      cases h₁
      by_contra hne₂
      rw [Function.update_of_ne (Ne.symm hne₂)] at h₂
      exact hfree t₂ (Ne.symm hne₂) h₂
    · rw [Function.update_of_ne hne₁] at h₁
      rcases eq_or_ne t₂ t with rfl | hne₂
      · rw [Function.update_self] at h₂
        cases h₂
        exact absurd h₁ (hfree t₁ hne₁)
      · rw [Function.update_of_ne hne₂] at h₂
        exact h.alone t₁ t₂ key' h₁ h₂

theorem clear (h : Tagged issued stored ghost tag) (hread : ghost t = .read key true) :
    Tagged issued (fun key' => key' ≠ key ∧ stored key') (Function.update ghost t (.cleared key)) tag := by
  have hhas : ∀ t' key', (Function.update ghost t (.cleared key) t').Has key' → (ghost t').Has key' := by
    intro t' key' ht'
    rcases eq_or_ne t' t with rfl | hne
    · rw [Function.update_self] at ht'
      rcases ht' with heq | heq
      · cases heq
      · cases heq
        exact .inl hread
    · rw [Function.update_of_ne hne] at ht'
      exact ht'
  have hreads : ∀ t' key', Function.update ghost t (.cleared key) t' = .read key' true → ghost t' = .read key' true := by
    intro t' key' ht'
    rcases eq_or_ne t' t with rfl | hne
    · rw [Function.update_self] at ht'
      cases ht'
    · rw [Function.update_of_ne hne] at ht'
      exact ht'
  refine ⟨fun t' key' ht' => h.range t' key' (hhas t' key' ht'), fun key' hkey' => ?later,
    fun t₁ t₂ key' h₁ h₂ htag => ?apart, fun t₁ t₂ key' h₁ h₂ => h.alone t₁ t₂ key' (hreads t₁ key' h₁) (hreads t₂ key' h₂)⟩
  case later =>
    refine ⟨(h.later key' hkey'.2).1, fun t' ht' => ?_⟩
    rcases eq_or_ne t' t with rfl | hne
    · rw [Function.update_self] at ht'
      cases ht'
      exact absurd rfl hkey'.1
    · rw [Function.update_of_ne hne] at ht'
      exact (h.later key' hkey'.2).2 t' ht'
  case apart =>
    have hold := hhas t₂ key' h₂
    rcases eq_or_ne t₁ t with rfl | hne
    · rw [Function.update_self] at h₁
      cases h₁
      -- the callback held the state until now: nobody else does, and who cleared it before has another tag
      rcases hold with heq | heq
      · exact h.alone t₁ t₂ key hread heq
      · exact (h.apart t₂ t₁ key heq (.inl hread) htag.symm).symm
    · rw [Function.update_of_ne hne] at h₁
      exact h.apart t₁ t₂ key' h₁ hold htag

end Tagged

section Once

variable {crates : Crates} {now : ℕ} {inputs : List Input} {requests : Requests} {events : List Event} {e : Event}
    {ghost : ℕ → Phase}

def Stored (s : ExchangeStore) (key : String) : Prop := (s.codes.lookup key).isSome = true

def issuedTimes (events : List Event) (key : String) : ℕ := events.countP (issues key)

/-- What is known of the requests: `ghost` says how far they are. -/
structure Watched (events : List Event) (requests : Requests) (ghost : ℕ → Phase) : Prop where
  tagged : ∃ tag, Tagged (issuedTimes events) (Stored requests.shared) ghost tag
  holds : ∀ t key, ghost t = .read key true → Holds events t key
  proceeded : ∀ e ∈ events, ∀ oauthState, Proceeds oauthState e → ghost e.task = .cleared (oauthStateKey oauthState)
  known : ∀ e ∈ events, requests.tasks.lookup e.task ≠ none

theorem issuedTimes_le (key : String) : issuedTimes events key ≤ issuedTimes (events ++ [e]) key := by
  unfold issuedTimes
  rw [List.countP_append]
  exact Nat.le_add_right _ _

theorem issuedTimes_lt {key : String} (h : issues key e = true) :
    issuedTimes events key < issuedTimes (events ++ [e]) key := by
  unfold issuedTimes
  rw [List.countP_append, List.countP_singleton, if_pos h]
  exact Nat.lt_succ_self _

theorem stored_perform {o : OauthMeets} {act : OauthAct} {s : ExchangeStore} {key : String}
    (h : Stored (act.perform o s).2 key) : Stored s key ∨ ∃ value seconds, act = .exchange (.setEx key value seconds) := by
  unfold Stored at h
  rcases codes_perform o act s with ⟨key', value, seconds, rfl, hcodes⟩ | ⟨key', hcodes⟩ | hcodes
  · rw [hcodes, Assoc.lookup_insert_eq] at h
    split at h
    · next heq => exact .inr ⟨value, seconds, by rw [heq]⟩
    · exact .inl h
  · rw [hcodes, Assoc.lookup_erase_eq] at h
    split at h
    · cases h
    · exact .inl h
  · rw [hcodes] at h
    exact .inl h

theorem tagged_step {o : OauthMeets} {act : OauthAct} {t : ℕ} {label : OauthRequest}
    (hw : Watched events requests ghost) (hmay : MayDo label (ghost t) act)
    (hfree : Undisturbed events ⟨t, label, act, (act.perform o requests.shared).1, requests.shared,
      (act.perform o requests.shared).2⟩) :
    ∃ tag, Tagged (issuedTimes (events ++ [⟨t, label, act, (act.perform o requests.shared).1, requests.shared,
        (act.perform o requests.shared).2⟩])) (Stored (act.perform o requests.shared).2)
      (Function.update ghost t ((ghost t).next act (act.perform o requests.shared).1)) tag := by
  obtain ⟨tag, htagged⟩ := hw.tagged
  have hstored : ∀ key, Stored (act.perform o requests.shared).2 key → Stored requests.shared key ∨
      issuedTimes events key < issuedTimes (events ++ [⟨t, label, act, (act.perform o requests.shared).1, requests.shared,
        (act.perform o requests.shared).2⟩]) key := by
    intro key hkey
    refine (stored_perform hkey).imp id ?_
    rintro ⟨value, seconds, rfl⟩
    exact issuedTimes_lt (by simp [issues])
  -- a step that finds nothing, and clears nothing
  have hidle : ∀ g, (∀ key, g.Has key → g = ghost t) → ∃ tag, Tagged (issuedTimes (events ++ [⟨t, label, act,
      (act.perform o requests.shared).1, requests.shared, (act.perform o requests.shared).2⟩]))
      (Stored (act.perform o requests.shared).2) (Function.update ghost t g) tag := by
    intro g hg
    refine ⟨tag, htagged.mono (fun t' key ht' => ?_) issuedTimes_le hstored⟩
    rcases eq_or_ne t' t with rfl | hne
    · rw [Function.update_self] at ht' ⊢
      exact hg key ht'
    · rw [Function.update_of_ne hne]
  cases act with
  | get key =>
    generalize hres : (OauthAct.perform o (.get key) requests.shared).1 = res at hfree hidle hstored ⊢
    rcases res with - | - | value
    · exact hidle .over fun key' h => by rcases h with h | h <;> cases h
    · exact hidle (.read key false) fun key' h => by rcases h with h | h <;> cases h
    · obtain ⟨expiry, hlookup, -⟩ := lookup_of_found hres
      have hkey : Stored requests.shared key := by
        unfold Stored
        rw [hlookup]
        rfl
      have hothers : ∀ t' ≠ t, ghost t' ≠ .read key true := by
        intro t' ht' hread
        refine hfree key ?_ t' ht' (hw.holds t' key hread)
        rw [finds_eq_some.2 rfl]
        rfl
      exact ⟨_, (htagged.find hkey hothers).mono (fun _ _ _ => rfl) issuedTimes_le hstored⟩
  | del key =>
    obtain ⟨found, hread⟩ := hmay
    generalize hres : (OauthAct.perform o (.del key) requests.shared).1 = res at hfree hidle hstored ⊢
    have hover : ∀ key', Phase.over.Has key' → Phase.over = ghost t := fun key' h => by rcases h with h | h <;> cases h
    rw [hread]
    cases found with
    | false => exact hidle .over hover
    | true =>
      cases res with
      | none => exact hidle .over hover
      | some u =>
        refine ⟨tag, (htagged.clear hread).mono (fun _ _ _ => rfl) issuedTimes_le fun key' hkey' => ?_⟩
        have herased := erase_of_deleted hres
        unfold Stored at hkey' ⊢
        rw [herased, Assoc.lookup_erase_eq] at hkey'
        split at hkey'
        · cases hkey'
        · next hne => exact .inl ⟨hne, hkey'⟩
  | _ => exact hidle _ fun _ _ => rfl

theorem quiet_of_cleared {act : OauthAct} {label : OauthRequest} {key : String} (hmay : MayDo label (.cleared key) act) :
    Quiet act := by
  cases act with
  | get key => cases hmay
  | del key =>
    obtain ⟨found, h⟩ := hmay
    cases h
  | _ => exact ⟨nofun, nofun⟩

theorem finds_of_next {g : Phase} {label : OauthRequest} {t : ℕ} {act : OauthAct} {res : act.Res} {s s' : ExchangeStore}
    {key : String} (hmay : MayDo label g act) (h : g.next act res = .read key true) :
    (finds key ⟨t, label, act, res, s, s'⟩).isSome = true := by
  cases act with
  | get key' =>
    rcases res with - | - | value
    · cases h
    · cases h
    · cases h
      rw [finds_eq_some.2 rfl]
      rfl
  | del key' =>
    obtain ⟨found, rfl⟩ := hmay
    cases found with
    | false => cases h
    | true => cases res <;> cases h
  | config providerKey => exact absurd h (hmay.1 key true)
  | _ => exact absurd h (hmay key true)

theorem watched_spawn {t : ℕ} {task : Pool.Task OauthRequest OauthAct OauthAct.Res (Except AppError Redirect)}
    (hw : Watched events requests ghost) (hnone : requests.tasks.lookup t = none) :
    Watched events { requests with tasks := requests.tasks.insert t task } (Function.update ghost t .fresh) := by
  obtain ⟨tag, htagged⟩ := hw.tagged
  refine ⟨⟨tag, htagged.mono (fun t' key h => ?_) (fun _ => le_rfl) fun _ h => .inl h⟩, fun t' key h => ?_,
    fun e he oauthState h => ?_, fun e he => ?_⟩
  · rcases eq_or_ne t' t with rfl | hne
    · rw [Function.update_self] at h
      rcases h with h | h <;> cases h
    · exact Function.update_of_ne hne _ _
  · rcases eq_or_ne t' t with rfl | hne
    · rw [Function.update_self] at h
      cases h
    · rw [Function.update_of_ne hne] at h
      exact hw.holds t' key h
  · have hne : e.task ≠ t := by
      rintro rfl
      exact hw.known e he hnone
    rw [Function.update_of_ne hne]
    exact hw.proceeded e he oauthState h
  · rw [Assoc.lookup_insert_eq]
    split
    · nofun
    · exact hw.known e he

theorem watched_step {o : OauthMeets} {act : OauthAct} {t : ℕ} {label : OauthRequest}
    {task : Pool.Task OauthRequest OauthAct OauthAct.Res (Except AppError Redirect)}
    (hw : Watched events requests ghost) (hmay : MayDo label (ghost t) act)
    (hfree : Undisturbed events ⟨t, label, act, (act.perform o requests.shared).1, requests.shared,
      (act.perform o requests.shared).2⟩) :
    Watched (events ++ [⟨t, label, act, (act.perform o requests.shared).1, requests.shared,
        (act.perform o requests.shared).2⟩]) ⟨(act.perform o requests.shared).2, requests.tasks.insert t task⟩
      (Function.update ghost t ((ghost t).next act (act.perform o requests.shared).1)) := by
  refine ⟨tagged_step hw hmay hfree, fun t' key h => ?holds, fun e he oauthState h => ?proceeded, fun e he => ?known⟩
  case holds =>
    unfold Holds
    rw [Pool.lastOf_concat]
    rcases eq_or_ne t' t with rfl | hne
    · rw [Function.update_self] at h
      rw [if_pos rfl]
      exact ⟨_, rfl, finds_of_next hmay h⟩
    · rw [Function.update_of_ne hne] at h
      rw [if_neg (Ne.symm hne)]
      exact hw.holds t' key h
  case proceeded =>
    rcases List.mem_append.1 he with he | he
    · have hcleared := hw.proceeded e he oauthState h
      rcases eq_or_ne e.task t with heq | hne
      · rw [heq] at hcleared ⊢
        rw [hcleared] at hmay
        rw [Function.update_self, next_of_quiet (quiet_of_cleared hmay), hcleared]
      · rw [Function.update_of_ne hne]
        exact hcleared
    · rw [List.mem_singleton.1 he] at h ⊢
      obtain ⟨hpresents, providerKey, hact⟩ := h
      dsimp only at hact
      subst hact
      rw [Function.update_self]
      exact hmay.2 oauthState hpresents
  case known =>
    rw [Assoc.lookup_insert_eq]
    split
    · nofun
    · next hne =>
      rcases List.mem_append.1 he with he | he
      · exact hw.known e he
      · rw [List.mem_singleton.1 he] at hne
        exact absurd rfl hne

theorem watched_start : Watched [] (start now) fun _ => .fresh := by
  refine ⟨⟨fun _ => 0, fun t key h => ?_, fun key h => ?_, fun t t' key h => ?_, fun t t' key h => ?_⟩, fun t key h => ?_,
    fun e he => ?_, fun e he => ?_⟩
  · rcases h with h | h <;> cases h
  · cases h
  · cases h
  · cases h
  · cases h
  · cases he
  · cases he

theorem watched_of_run (hrun : Run.exec (step crates) (start now) inputs = some requests)
    (hfree : Run.Each Undisturbed (trace crates now inputs)) :
    ∃ ghost, Watched (trace crates now inputs) requests ghost := by
  obtain ⟨ghost, -, hw⟩ := Pool.shadowed_trace (I := Watched) ghost_run
    (fun _ _ _ _ _ hw hnone => watched_spawn hw hnone)
    (fun _ _ _ _ _ _ _ _ hw _ hmay hfree => watched_step hw hmay hfree) watched_start hfree hrun
  exact ⟨ghost, hw⟩

/-- In every run in which no callback finds a state that another one has found and not yet deleted, a state lets one
callback proceed for each time that it was issued; and in every run a callback proceeds only with a state that was issued
before it was read, and had not expired. -/
theorem oneTime_of_run (crates : Crates) (now : ℕ) (inputs : List Input) (requests : Requests)
    (hrun : Run.exec (step crates) (start now) inputs = some requests)
    (hfree : Run.Each Undisturbed (trace crates now inputs)) : OneTime (trace crates now inputs) := by
  refine ⟨fun oauthState ts hnodup hts => ?_, timely_of_run hrun⟩
  obtain ⟨ghost, hw⟩ := watched_of_run hrun hfree
  obtain ⟨tag, htagged⟩ := hw.tagged
  have hcleared : ∀ t ∈ ts, ghost t = .cleared (oauthStateKey oauthState) := by
    intro t ht
    obtain ⟨e, he, rfl, hproceeds⟩ := hts t ht
    exact hw.proceeded e he oauthState hproceeds
  have hinj : (ts.map tag).Nodup := by
    refine List.Nodup.map_on (fun t ht t' ht' heq => ?_) hnodup
    exact htagged.apart t t' _ (hcleared t ht) (.inr (hcleared t' ht')) heq
  have hsubset : ts.map tag ⊆ List.range' 1 (issuedTimes (trace crates now inputs) (oauthStateKey oauthState)) := by
    intro n hn
    obtain ⟨t, ht, rfl⟩ := List.mem_map.1 hn
    obtain ⟨hone, hle⟩ := htagged.range t _ (.inr (hcleared t ht))
    exact List.mem_range'_1.2 ⟨hone, by omega⟩
  have hle := (List.subperm_of_subset hinj hsubset).length_le
  rw [List.length_map, List.length_range'] at hle
  exact hle

def undisturbed (older : List Event) (e : Event) : Bool :=
  match e.act with
  | .get key => older.all fun other => decide (other.task = e.task) ||
      (Pool.lastOf older other.task).all fun last => (finds key last).isNone
  | _ => true

theorem undisturbed_sound {older : List Event} (h : undisturbed older e = true) : Undisturbed older e := by
  rintro key hfinds t ht ⟨last, hlast, hholds⟩
  obtain ⟨value, hvalue⟩ := Option.isSome_iff_exists.1 hfinds
  obtain ⟨task, label, act, res, before, after⟩ := e
  cases finds_eq_some.1 hvalue
  have htask : last.task = t := of_decide_eq_true (List.mem_filter.1 (List.mem_of_getLast? hlast)).2
  have hcheck := List.all_eq_true.1 h last (Pool.mem_of_lastOf hlast)
  rw [htask, hlast, Option.all_some, Bool.or_eq_true, decide_eq_true_eq, Option.isNone_iff_eq_none] at hcheck
  rcases hcheck with heq | hnone
  · exact ht heq
  · rw [hnone] at hholds
    cases hholds

def githubConfig : ProviderConfig := ⟨some "client", "github", some "secret", none, []⟩

def answered : OauthMeets :=
  ⟨⟨0, .answered, .ok ""⟩, some (some githubConfig), [], "https://chat", .ok "", .ok ⟨0, "a@b.de", "user", none⟩⟩

def loggedIn : List Input :=
  .spawn 0 (.login "github" ⟨none, none, none, none, none, none⟩ ⟨0, "", 1⟩) :: List.replicate 5 (.step 0 answered)

def issuedState : String := Uuid.hyphenated 0

def comesBack : OauthRequest := .callback true "github" ⟨some "code", some issuedState, none, none⟩ "0123456789"

/-- Two callbacks with the state, one after the other. -/
def oneByOne : List Input :=
  loggedIn ++ [.spawn 1 comesBack, .spawn 2 comesBack] ++ List.replicate 5 (.step 1 answered) ++
    List.replicate 3 (.step 2 answered)

/-- And step by step in turns. -/
def inTurns : List Input :=
  loggedIn ++ [.spawn 1 comesBack, .spawn 2 comesBack] ++
    (List.replicate 5 [.step 1 answered, .step 2 answered]).flatten

def proceeding (e : Event) : Option ℕ :=
  match e.label, e.act with
  | .callback _ _ query _, .config _ => if query.state = some issuedState then some e.task else none
  | _, _ => none

theorem proceeds_of_proceeding {t : ℕ} (h : proceeding e = some t) : e.task = t ∧ Proceeds issuedState e := by
  unfold proceeding at h
  split at h
  · next production providerKey query exchangeCode key hlabel hact =>
    split at h
    · next hstate =>
      cases h
      exact ⟨rfl, by rw [hlabel]; exact hstate, key, hact⟩
    · cases h
  · cases h

theorem oneTime_oneByOne : ∃ requests, Run.exec (step cratesV) (start 0) oneByOne = some requests ∧
    (trace cratesV 0 oneByOne).filterMap proceeding = [1] ∧ OneTime (trace cratesV 0 oneByOne) := by
  have hrun : (Run.exec (step cratesV) (start 0) oneByOne).isSome = true ∧
      (trace cratesV 0 oneByOne).filterMap proceeding = [1] ∧
      Run.Each (fun older e => undisturbed older e = true) (trace cratesV 0 oneByOne) := by decide +kernel
  obtain ⟨hsome, hproceeding, hfree⟩ := hrun
  obtain ⟨requests, hrun⟩ := Option.isSome_iff_exists.1 hsome
  exact ⟨requests, hrun, hproceeding, oneTime_of_run cratesV 0 oneByOne requests hrun
    fun older e newer heq => undisturbed_sound (hfree older e newer heq)⟩

/-- Both callbacks proceed with the state that was issued once. -/
theorem proceed_twice : ∃ requests, Run.exec (step cratesV) (start 0) inTurns = some requests ∧
    ¬ OneTime (trace cratesV 0 inTurns) := by
  have hrun : (Run.exec (step cratesV) (start 0) inTurns).isSome = true ∧
      (trace cratesV 0 inTurns).filterMap proceeding = [1, 2] ∧
      (trace cratesV 0 inTurns).countP (issues (oauthStateKey issuedState)) = 1 := by decide +kernel
  obtain ⟨hsome, hproceeding, hissued⟩ := hrun
  obtain ⟨requests, hrun⟩ := Option.isSome_iff_exists.1 hsome
  refine ⟨requests, hrun, fun h => ?_⟩
  have hle := h.once issuedState [1, 2] (by decide) fun t ht => ?_
  · rw [hissued] at hle
    exact absurd hle (by decide)
  · rw [← hproceeding] at ht
    obtain ⟨e, he, hp⟩ := List.mem_filterMap.1 ht
    exact ⟨e, he, proceeds_of_proceeding hp⟩

end Once

end States

end Oauth

end Rustchat
