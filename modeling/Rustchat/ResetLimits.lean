import Rustchat.PasswordReset

/-!
# How many password tokens are issued (`services/password_reset.rs`)

Before a token is stored its request counts those of the last hour, for the email and for the address that the request
came from. Requests that count at the same time do not see each other's tokens, an email is counted as it is written,
and a registration names no address. Where tokens are stored under the email in its normal form, and none for the email
comes in between the count and the token, an email gets three in an hour at most; the same holds for ten and an address
(`PasswordReset.limited_of_alone`).
-/

namespace Rustchat

namespace PasswordReset

open Oauth (CommandFate)

def issued : Event → Option NewToken
  | ⟨_, _, .insertToken row, fate, _, _⟩ =>
    match (fate : CommandFate) with
    | .refused => none
    | _ => some row
  | _ => none

def Request.remote : Request → Option IpAddr
  | requestPasswordReset _ ipAddress _ => ipAddress
  | requestPasswordSetup _ ipAddress _ => ipAddress
  | sendPasswordSetupEmail _ _ _ _ remote => some remote
  | _ => none

def Env.normalEmail (env : Env) (email : String) : String := env.maps.toLowercase (trimText email)

/-- The email that a token is for, as the request has it, in its normal form. -/
def emailOf (env : Env) (e : Event) (row : NewToken) : String :=
  env.normalEmail (match e.label with
    | .requestPasswordReset email _ _ => email
    | _ => row.email)

/-- A token that meets `p` is stored in the hour that begins with `since`. -/
def issuesIn (since : Int) (p : Event → NewToken → Bool) (e : Event) : Bool :=
  (issued e).any (p e) && decide (since ≤ e.after.now ∧ e.after.now < since + hour)

def FewForEmail (env : Env) (events : List Event) : Prop :=
  ∀ email since, events.countP (issuesIn since fun e row => emailOf env e row = email) ≤ rateLimitEmailHourly

def FewForIp (events : List Event) : Prop :=
  ∀ ip since, events.countP (issuesIn since fun e _ => e.label.remote = some ip) ≤ rateLimitIpHourly

def ResetAct.countsEmail : ResetAct → Bool
  | countEmail _ _ => true
  | _ => false

def ResetAct.countsIp : ResetAct → Bool
  | countIp _ _ => true
  | _ => false

def sinceCount (counts : ResetAct → Bool) (t : ℕ) (older : List Event) : List Event :=
  Run.since (fun e => decide (e.task = t) && counts e.act) older

/-- A token is stored under the normal form of its email, and no other for it since its request has counted. -/
def EmailAlone (env : Env) (older : List Event) (e : Event) : Prop :=
  ∀ row ∈ issued e, row.email = emailOf env e row ∧
    ∀ other ∈ sinceCount ResetAct.countsEmail e.task older, ∀ row' ∈ issued other, row'.email ≠ row.email

/-- A token is stored with the address that its request came from, and no other with it since the request has counted. -/
def IpAlone (older : List Event) (e : Event) : Prop :=
  ∀ row ∈ issued e, row.createdIp = e.label.remote ∧ ∀ other ∈ sinceCount ResetAct.countsIp e.task older,
    ∀ row' ∈ issued other, row.createdIp = none ∨ row'.createdIp ≠ row.createdIp

instance (env : Env) (older : List Event) (e : Event) : Decidable (EmailAlone env older e) :=
  inferInstanceAs (Decidable (∀ row ∈ issued e, _ ∧ ∀ other ∈ _, ∀ row' ∈ issued other, _))

instance (older : List Event) (e : Event) : Decidable (IpAlone older e) :=
  inferInstanceAs (Decidable (∀ row ∈ issued e, _ ∧ ∀ other ∈ _, ∀ row' ∈ issued other, _))

section Programs

variable {env : Env} {ipText : IpAddr → String} {past : List (Sigma ResetAct.Res)}

def Checked (email : String) (ipAddress : Option IpAddr) (past : List (Sigma ResetAct.Res)) : Prop :=
  (∃ since n, n < rateLimitEmailHourly ∧ ⟨.countEmail email since, (some n : Option ℕ)⟩ ∈ past) ∧
    ∀ ip ∈ ipAddress, ∃ since n, n < rateLimitIpHourly ∧ ⟨.countIp ip since, (some n : Option ℕ)⟩ ∈ past

/-- Tokens are counted for the last hour, and stored when they were counted. -/
def CheckedFirst (past : List (Sigma ResetAct.Res)) : ResetAct → Prop
  | .countEmail _ since => ∃ now : Int, ⟨.now, now⟩ ∈ past ∧ since = now - hour
  | .countIp _ since => ∃ now : Int, ⟨.now, now⟩ ∈ past ∧ since = now - hour
  | .insertToken row => Checked row.email row.createdIp past
  | _ => True

theorem Checked.append {email : String} {ipAddress : Option IpAddr} (h : Checked email ipAddress past)
    (es : List (Sigma ResetAct.Res)) : Checked email ipAddress (past ++ es) := by
  obtain ⟨⟨since, n, hn, hmem⟩, hip⟩ := h
  refine ⟨⟨since, n, hn, List.mem_append_left _ hmem⟩, fun ip h => ?_⟩
  obtain ⟨since, n, hn, hmem⟩ := hip ip h
  exact ⟨since, n, hn, List.mem_append_left _ hmem⟩

theorem follows_checkRateLimits (email : String) (ipAddress : Option IpAddr) :
    (checkRateLimits email ipAddress).run.Follows CheckedFirst past := by
  refine Prog.follows_run_call.2 ⟨trivial, fun now => ?_⟩
  refine Prog.follows_run_call.2 ⟨⟨now, by simp, rfl⟩, fun emailCount => ?_⟩
  split
  · exact trivial
  · split
    · exact trivial
    · split
      · exact trivial
      · refine Prog.follows_run_call.2 ⟨⟨now, by simp, rfl⟩, fun ipCount => ?_⟩
        split
        · exact trivial
        · split <;> exact trivial

theorem path_checkRateLimits {email : String} {ipAddress : Option IpAddr} {es : List (Sigma ResetAct.Res)}
    (h : (checkRateLimits email ipAddress).run.Path es (.ok ())) : Checked email ipAddress es := by
  obtain ⟨now, es₁, rfl, h₁⟩ := Prog.path_run_call.1 h
  obtain ⟨emailCount, es₂, rfl, h₂⟩ := Prog.path_run_call.1 h₁
  split at h₂
  · cases h₂.2
  · next emailCount =>
    split at h₂
    · cases h₂.2
    · next hemail =>
      refine ⟨⟨_, emailCount, not_le.1 hemail, List.mem_cons_of_mem _ List.mem_cons_self⟩, ?_⟩
      rintro ip rfl
      obtain ⟨ipCount, es₃, rfl, h₃⟩ := Prog.path_run_call.1 h₂
      split at h₃
      · cases h₃.2
      · next ipCount =>
        split at h₃
        · cases h₃.2
        · next hip =>
          exact ⟨_, ipCount, not_le.1 hip, List.mem_cons_of_mem _ (List.mem_cons_of_mem _ List.mem_cons_self)⟩

theorem follows_storeToken {email : String} {ipAddress : Option IpAddr} (h : Checked email ipAddress past)
    (userId : Option Uuid) (purpose : String) (userAgent : Option String) (failed : String) :
    (storeToken env userId email purpose ipAddress userAgent failed).run.Follows CheckedFirst past := by
  refine Prog.follows_run_call.2 ⟨trivial, fun token => Prog.follows_run_call.2 ⟨trivial, fun now => ?_⟩⟩
  refine Prog.follows_run_call.2 ⟨(h.append _).append _, fun fate => ?_⟩
  match fate with
  | .answered => exact trivial
  | .refused => exact trivial
  | .unanswered => exact trivial

def ResetAct.limits : ResetAct → Bool
  | countEmail _ _ => true
  | countIp _ _ => true
  | insertToken _ => true
  | _ => false

def Uncounted (act : ResetAct) : Prop := act.limits = false

theorem follows_of_uncounted {α : Type} {x : ResetProg α} (h : Only Uncounted x) :
    x.run.Follows CheckedFirst past := by
  refine Prog.Safe.follows h fun past act hact => ?_
  cases act <;> first | exact trivial | cases hact

theorem uncounted_query {act : ResetAct} (h : act.limits = false) : Only Uncounted (query act) := only_query h

theorem uncounted_fetchSiteUrl : Only Uncounted fetchSiteUrl := only_fetchSiteUrl rfl

theorem uncounted_resetPassword (token newPassword : String) :
    Only Uncounted (resetPassword env token newPassword) := by
  refine (uncounted_query rfl).bind fun rules => ?_
  split
  · exact only_throw _
  · split
    · exact only_throw _
    · exact only_throw _
    · refine (uncounted_query rfl).bind fun found => ?_
      split
      · exact only_throw _
      · exact only_throw _
      · unfold changePassword
        split
        · exact only_throw _
        · split
          · exact only_throw _
          · split
            · exact only_throw _
            · refine (uncounted_query rfl).bind fun now => ?_
              split
              · exact only_throw _
              · refine (uncounted_query rfl).bind fun hashed => ?_
                split
                · exact only_throw _
                · refine (uncounted_query rfl).bind fun fate => ?_
                  split
                  · exact only_throw _
                  · exact only_throw _
                  · exact only_throw _
                  · exact only_throw _
                  · exact only_pure _

theorem follows_issue {α : Type} {email : String} {ipAddress : Option IpAddr} {x : ResetProg α}
    (h : ∀ past, Checked email ipAddress past → x.run.Follows CheckedFirst past) :
    (checkRateLimits email ipAddress >>= fun _ => x).run.Follows CheckedFirst past := by
  refine (Prog.follows_run_bind _ _).2 ⟨follows_checkRateLimits email ipAddress, fun es _ hpath => h _ ?_⟩
  have hchecked := path_checkRateLimits hpath
  refine ⟨?_, fun ip hip => ?_⟩
  · obtain ⟨since, n, hn, hmem⟩ := hchecked.1
    exact ⟨since, n, hn, List.mem_append_right _ hmem⟩
  · obtain ⟨since, n, hn, hmem⟩ := hchecked.2 ip hip
    exact ⟨since, n, hn, List.mem_append_right _ hmem⟩

theorem follows_requestPasswordReset (email : String) (ipAddress : Option IpAddr) (userAgent : Option String) :
    (requestPasswordReset env ipText email ipAddress userAgent).run.Follows CheckedFirst [] := by
  refine follows_issue fun past hchecked => Prog.follows_run_call.2 ⟨trivial, fun found => ?_⟩
  split
  · exact trivial
  · refine (Prog.follows_run_bind _ _).2 ⟨follows_storeToken (hchecked.append _) _ _ _ _,
      fun es token _ => ?_⟩
    refine follows_of_uncounted ?_
    split
    · exact only_pure _
    · refine uncounted_fetchSiteUrl.bind fun siteUrl => ?_
      split
      · exact only_pure _
      · exact (uncounted_query rfl).bind fun _ => only_pure _

theorem follows_requestPasswordSetup (userId : Uuid) (ipAddress : Option IpAddr) (userAgent : Option String) :
    (requestPasswordSetup env userId ipAddress userAgent).run.Follows CheckedFirst [] := by
  refine Prog.follows_run_call.2 ⟨trivial, fun found => ?_⟩
  split
  · exact trivial
  · exact trivial
  · refine follows_issue fun past hchecked =>
      (Prog.follows_run_bind _ _).2 ⟨follows_storeToken hchecked _ _ _ _,
        fun es token _ => follows_of_uncounted ?_⟩
    refine uncounted_fetchSiteUrl.bind fun siteUrl => ?_
    split
    · exact only_throw _
    · exact only_sendSetupMail fun _ _ _ => rfl

theorem follows_sendPasswordSetupEmail (userId : Uuid) (username email siteUrl : String) :
    (sendPasswordSetupEmail env userId username email siteUrl).run.Follows CheckedFirst [] :=
  follows_issue fun _ hchecked => (Prog.follows_run_bind _ _).2 ⟨follows_storeToken hchecked _ _ _ _,
    fun _ _ _ => follows_of_uncounted (only_sendSetupMail fun _ _ _ => rfl)⟩

theorem checkedFirst_run (request : Request) : (request.run env ipText).Follows CheckedFirst [] := by
  cases request with
  | resetPassword token newPassword =>
    exact follows_of_uncounted ((uncounted_resetPassword token newPassword).bind fun _ => only_pure _)
  | requestPasswordReset email ipAddress userAgent =>
    exact (Prog.follows_run_bind _ _).2 ⟨follows_requestPasswordReset email ipAddress userAgent,
      fun _ _ _ => trivial⟩
  | requestPasswordSetup userId ipAddress userAgent =>
    exact (Prog.follows_run_bind _ _).2 ⟨follows_requestPasswordSetup userId ipAddress userAgent,
      fun _ _ _ => trivial⟩
  | sendPasswordSetupEmail userId username email siteUrl remote =>
    exact (Prog.follows_run_bind _ _).2 ⟨follows_sendPasswordSetupEmail userId username email siteUrl,
      fun _ _ _ => trivial⟩
  | writeAccounts change =>
    exact follows_of_uncounted ((uncounted_query rfl).bind fun _ => only_pure _)

end Programs

/-! ### The rows -/

section Rows

variable {events : List Event} {db : Db} {e : Event}

def issuedAt (e : Event) : Option (NewToken × Int) := (issued e).map fun row => (row, e.after.now)

/-- The rows are those that were stored, and the clock does not go back. -/
structure Stored (events : List Event) (db : Db) : Prop where
  rows : (db.tokens.map fun row => (row.toNewToken, row.createdAt)) = events.filterMap issuedAt
  clock : ∀ e ∈ events, e.after.now ≤ db.now

theorem now_perform (o : Meets) (act : ResetAct) (db : Db) :
    (db.perform o act).2.now = db.now + o.elapsed := by
  cases act <;> try rfl
  case transaction =>
    simp only [Db.perform]
    split <;> rfl
  case insertToken =>
    simp only [Db.perform]
    split <;> rfl

theorem le_now_perform (o : Meets) (act : ResetAct) (db : Db) : db.now ≤ (db.perform o act).2.now := by
  rw [now_perform]
  omega

theorem Stored.same (h : Stored events db) (hissued : issued e = none) (hnow : db.now ≤ e.after.now)
    (htokens : (e.after.tokens.map fun row => (row.toNewToken, row.createdAt)) =
      db.tokens.map fun row => (row.toNewToken, row.createdAt)) : Stored (events ++ [e]) e.after := by
  refine ⟨?_, fun e' he' => ?_⟩
  · rw [htokens, h.rows, List.filterMap_append,
      List.filterMap_cons_none (by rw [issuedAt, hissued, Option.map_none])]
    simp
  · rcases List.mem_append.1 he' with he' | he'
    · exact (h.clock e' he').trans hnow
    · rw [List.mem_singleton.1 he']

theorem stored_perform (h : Stored events db) (t : ℕ) (request : Request) (o : Meets) (act : ResetAct) :
    Stored (events ++ [⟨t, request, act, (db.perform o act).1, db, (db.perform o act).2⟩]) (db.perform o act).2 := by
  let e : Event := ⟨t, request, act, (db.perform o act).1, db, (db.perform o act).2⟩
  have hnow : db.now ≤ e.after.now := le_now_perform o act db
  cases act with
  | transaction tokenHash passwordHash userId activateUser =>
    refine h.same (e := e) rfl hnow ?_
    by_cases happlied : o.tx.applied = true
    · simp only [e, Db.perform, happlied, if_true, Db.markUsed, List.map_map]
      refine List.map_congr_left fun row _ => ?_
      simp only [Function.comp_apply]
      split <;> rfl
    · simp only [e, Db.perform, if_neg happlied]
  | insertToken row =>
    by_cases hfate : o.fate = .refused
    · have hissued : issued e = none := by simp [e, issued, Db.perform, hfate]
      exact h.same hissued hnow (by simp [Db.perform, hfate])
    · have hissued : issuedAt e = some (row, e.after.now) := by
        cases hf : o.fate <;> simp_all [e, issuedAt, issued, Db.perform]
      refine ⟨?_, fun e' he' => ?_⟩
      · rw [List.filterMap_append, List.filterMap_cons_some hissued, ← h.rows]
        simp [e, Db.perform, hfate]
      · rcases List.mem_append.1 he' with he' | he'
        · exact (h.clock e' he').trans hnow
        · rw [List.mem_singleton.1 he']
  | _ => exact h.same (e := e) rfl hnow rfl

theorem act_of_issued {row : NewToken} (h : issued e = some row) : e.act = .insertToken row := by
  obtain ⟨t, request, act, fate, before, after⟩ := e
  cases act with
  | insertToken row' =>
    have hrow : row' = row := by
      match fate, h with
      | .answered, h => exact Option.some.inj h
      | .unanswered, h => exact Option.some.inj h
    rw [hrow]
  | _ => cases h

theorem issued_of_counts (h : (e.act.countsEmail || e.act.countsIp) = true) : issued e = none := by
  obtain ⟨t, request, act, fate, before, after⟩ := e
  cases act <;> first | rfl | cases h

theorem issuesIn_iff {since : Int} {p : Event → NewToken → Bool} :
    issuesIn since p e = true ↔ ∃ row, issued e = some row ∧ p e row = true ∧ since ≤ e.after.now ∧
      e.after.now < since + hour := by
  unfold issuesIn
  rw [Bool.and_eq_true, Option.any_eq_true, decide_eq_true_eq]
  constructor
  · rintro ⟨⟨row, hissued, hp⟩, htime⟩
    exact ⟨row, hissued, hp, htime⟩
  · rintro ⟨row, hissued, hp, htime⟩
    exact ⟨⟨row, hissued, hp⟩, htime⟩

theorem countP_issuesIn_le {since : Int} {p : Event → NewToken → Bool} {wanted : NewToken → Bool}
    (h : ∀ e ∈ events, ∀ row, issued e = some row → p e row = true → wanted row = true) :
    events.countP (issuesIn since p) ≤ events.countP (issuesIn since fun _ row => wanted row) := by
  refine List.countP_mono_left fun e he hissues => ?_
  obtain ⟨row, hissued, hp, htime⟩ := issuesIn_iff.1 hissues
  exact issuesIn_iff.2 ⟨row, hissued, h e he row hissued hp, htime⟩

theorem few_of_count {wanted : NewToken → Bool} {limit : ℕ} {before between : List Event} {count : Event} {since : Int}
    (hstored : Stored before count.before)
    (hfew : (count.before.tokens.countP fun row =>
      wanted row.toNewToken && decide (count.after.now - hour < row.createdAt)) < limit)
    (hnone : issued count = none) (hbetween : ∀ other ∈ between, ∀ row ∈ issued other, wanted row = false)
    (hsince : count.after.now < since + hour) :
    (before ++ count :: between).countP (issuesIn since fun _ row => wanted row) < limit := by
  have hlater : between.countP (issuesIn since fun _ row => wanted row) = 0 := by
    refine List.countP_eq_zero.2 fun other hmem hissues => ?_
    obtain ⟨row, hissued, hwanted, -⟩ := issuesIn_iff.1 hissues
    rw [hbetween other hmem row hissued] at hwanted
    cases hwanted
  have hcount : ¬ issuesIn since (fun _ row => wanted row) count = true := by
    intro hissues
    obtain ⟨row, hissued, -⟩ := issuesIn_iff.1 hissues
    rw [hnone] at hissued
    cases hissued
  have hearlier : before.countP (issuesIn since fun _ row => wanted row) ≤
      (before.filterMap issuedAt).countP fun x => wanted x.1 && decide (count.after.now - hour < x.2) := by
    rw [List.countP_filterMap]
    refine List.countP_mono_left fun e _ hissues => ?_
    obtain ⟨row, hissued, hwanted, hle, -⟩ := issuesIn_iff.1 hissues
    have hin : count.after.now - hour < e.after.now := by omega
    simp [issuedAt, hissued, hwanted, hin]
  rw [← hstored.rows, List.countP_map] at hearlier
  rw [List.countP_append, List.countP_cons_of_neg hcount, hlater, Nat.add_zero]
  exact hearlier.trans_lt hfew

end Rows

/-! ### Every run -/

section Runs

variable {env : Env} {ipText : IpAddr → String} {accounts : Accounts} {now : Int} {inputs : List Input}
  {requests : Requests}

section At

variable (hrun : Run.exec (step env ipText) (start accounts now) inputs = some requests) {older newer : List Event}
  {e : Event} (hsplit : trace env ipText accounts now inputs = older ++ e :: newer)
include hrun hsplit

theorem checkedFirst_at : CheckedFirst (Pool.performed older e.task) e.act :=
  Pool.follows_of_run (W := fun _ => CheckedFirst) checkedFirst_run hrun older e newer hsplit

theorem stored_at : Stored older e.before :=
  (Pool.shared_invariant (I := Stored) (Q := fun _ _ => True) (fun _ _ t request o act h _ => stored_perform h t request o act)
    (fun _ _ _ _ => trivial) ⟨rfl, fun e he => (by cases he)⟩ hrun).2 older e newer hsplit

theorem exists_meets : ∃ o, e.res = (e.before.perform o e.act).1 ∧
    e.after = (e.before.perform o e.act).2 := by
  refine Pool.sem_of_run hrun e ?_
  rw [show Pool.trace _ _ _ _ = _ from hsplit]
  exact List.mem_append_right _ List.mem_cons_self

theorem now_le_after : e.before.now ≤ e.after.now := by
  obtain ⟨o, -, hafter⟩ := exists_meets hrun hsplit
  rw [hafter]
  exact le_now_perform o e.act e.before

theorem cutoff_le {cutoff : Int} (hread : ∃ now : Int, ⟨.now, now⟩ ∈ Pool.performed older e.task ∧ cutoff = now - hour) :
    cutoff ≤ e.after.now - hour := by
  obtain ⟨read, hmem, rfl⟩ := hread
  obtain ⟨clock, hclock, -, hact⟩ := Pool.mem_performed.1 hmem
  obtain ⟨before, between, rfl⟩ := List.append_of_mem hclock
  have hread : read = clock.after.now := by
    have hsplit' : trace env ipText accounts now inputs = before ++ clock :: (between ++ e :: newer) := by
      rw [hsplit, List.append_assoc, List.cons_append]
    obtain ⟨o, hres, hafter⟩ := exists_meets hrun hsplit'
    obtain ⟨t, request, act, res, db, after⟩ := clock
    cases hact
    rw [hafter]
    exact hres
  have hle := (stored_at hrun hsplit).clock clock hclock
  have hstep := now_le_after hrun hsplit
  omega

theorem le_countEmail {email : String} {cutoff : Int} {n : ℕ}
    (hact : (⟨e.act, e.res⟩ : Sigma ResetAct.Res) = ⟨.countEmail email cutoff, (some n : Option ℕ)⟩) :
    (e.before.tokens.countP fun row =>
      decide (row.email = email) && decide (e.after.now - hour < row.createdAt)) ≤ n := by
  have hcutoff : cutoff ≤ e.after.now - hour := by
    refine cutoff_le hrun hsplit ?_
    have hchecked := checkedFirst_at hrun hsplit
    rw [show e.act = .countEmail email cutoff from congrArg Sigma.fst hact] at hchecked
    exact hchecked
  obtain ⟨o, hres, hafter⟩ := exists_meets hrun hsplit
  obtain ⟨t, request, act, res, db, after⟩ := e
  cases hact
  dsimp only at hres hafter hcutoff ⊢
  subst hafter
  obtain ⟨-, rfl⟩ := Oauth.CommandFate.answer_eq_some.1 hres.symm
  refine List.countP_mono_left fun row _ hrow => ?_
  simp only [Db.perform, Bool.and_eq_true, decide_eq_true_eq] at hrow hcutoff ⊢
  have hin := of_decide_eq_true hrow.2
  exact ⟨hrow.1, hcutoff.trans_lt hin, hin⟩

theorem le_countIp {ip : IpAddr} {cutoff : Int} {n : ℕ}
    (hact : (⟨e.act, e.res⟩ : Sigma ResetAct.Res) = ⟨.countIp ip cutoff, (some n : Option ℕ)⟩) :
    (e.before.tokens.countP fun row =>
      decide (row.createdIp = some ip) && decide (e.after.now - hour < row.createdAt)) ≤ n := by
  have hcutoff : cutoff ≤ e.after.now - hour := by
    refine cutoff_le hrun hsplit ?_
    have hchecked := checkedFirst_at hrun hsplit
    rw [show e.act = .countIp ip cutoff from congrArg Sigma.fst hact] at hchecked
    exact hchecked
  obtain ⟨o, hres, hafter⟩ := exists_meets hrun hsplit
  obtain ⟨t, request, act, res, db, after⟩ := e
  cases hact
  dsimp only at hres hafter hcutoff ⊢
  subst hafter
  obtain ⟨-, rfl⟩ := Oauth.CommandFate.answer_eq_some.1 hres.symm
  refine List.countP_mono_left fun row _ hrow => ?_
  simp only [Db.perform, Bool.and_eq_true, decide_eq_true_eq] at hrow hcutoff ⊢
  exact ⟨hrow.1, hcutoff.trans_lt (of_decide_eq_true hrow.2)⟩

theorem few_older {wanted : NewToken → Bool} {limit : ℕ} (counts : ResetAct → Bool) {since : Int} {n : ℕ}
    {act : ResetAct} {res : act.Res} (hmem : ⟨act, res⟩ ∈ Pool.performed older e.task)
    (hcounts : counts act = true)
    (hissues : (act.countsEmail || act.countsIp) = true)
    (hle : ∀ before count between, older = before ++ count :: between → (⟨count.act, count.res⟩ : Sigma ResetAct.Res) = ⟨act, res⟩ →
      (count.before.tokens.countP fun row =>
        wanted row.toNewToken && decide (count.after.now - hour < row.createdAt)) ≤ n) (hn : n < limit)
    (hbetween : ∀ other ∈ sinceCount counts e.task older, ∀ row ∈ issued other, wanted row = false)
    (hsince : e.after.now < since + hour) :
    older.countP (issuesIn since fun _ row => wanted row) < limit := by
  obtain ⟨count, hcount, htask, hact⟩ := Pool.mem_performed.1 hmem
  obtain ⟨before, between, rfl⟩ := List.append_of_mem hcount
  have hact' : count.act = act := congrArg Sigma.fst hact
  have hsplit' : trace env ipText accounts now inputs = before ++ count :: (between ++ e :: newer) := by
    rw [hsplit, List.append_assoc, List.cons_append]
  have hclock : count.after.now ≤ e.after.now :=
    ((stored_at hrun hsplit).clock count hcount).trans (now_le_after hrun hsplit)
  refine few_of_count (stored_at hrun hsplit') (lt_of_le_of_lt (hle _ _ _ rfl hact) hn) (issued_of_counts (hact' ▸ hissues)) ?_
    (hclock.trans_lt hsince)
  exact fun other hother => hbetween other (Run.mem_since (by simp [htask, hact', hcounts]) hother)

end At

theorem split_older {older newer before after : List Event} {e other : Event}
    (hsplit : trace env ipText accounts now inputs = older ++ e :: newer)
    (holder : older = before ++ other :: after) :
    trace env ipText accounts now inputs = before ++ other :: (after ++ e :: newer) := by
  rw [hsplit, holder, List.append_assoc, List.cons_append]

theorem fewForEmail_of_alone (hrun : Run.exec (step env ipText) (start accounts now) inputs = some requests)
    (halone : Run.Each (EmailAlone env) (trace env ipText accounts now inputs)) :
    FewForEmail env (trace env ipText accounts now inputs) := by
  intro email since
  refine Run.Each.countP_le fun older e newer hsplit hissues => ?_
  obtain ⟨row, hissued, hemail, -, hsince⟩ := issuesIn_iff.1 hissues
  obtain ⟨hnormal, hbetween⟩ := halone older e newer hsplit row hissued
  have hrow : row.email = email := hnormal.trans (of_decide_eq_true hemail)
  have hchecked := checkedFirst_at hrun hsplit
  rw [act_of_issued hissued] at hchecked
  obtain ⟨⟨cutoff, n, hn, hmem⟩, -⟩ := hchecked
  have hfew : older.countP (issuesIn since fun _ row => decide (row.email = email)) < rateLimitEmailHourly := by
    refine few_older hrun hsplit ResetAct.countsEmail hmem rfl rfl (fun before count between hbefore hact => ?_) hn
      (fun other hother row' hrow' => decide_eq_false (hrow ▸ hbetween other hother row' hrow')) hsince
    rw [hrow] at hact
    exact le_countEmail hrun (split_older hsplit hbefore) hact
  refine (countP_issuesIn_le fun other hother row' hissued' hemail' => ?_).trans_lt hfew
  -- every token is stored under the normal form
  obtain ⟨before, after, holder⟩ := List.append_of_mem hother
  have hnormal' := (halone before other _ (split_older hsplit holder) row' hissued').1
  exact decide_eq_true (hnormal'.trans (of_decide_eq_true hemail'))

theorem fewForIp_of_alone (hrun : Run.exec (step env ipText) (start accounts now) inputs = some requests)
    (halone : Run.Each IpAlone (trace env ipText accounts now inputs)) :
    FewForIp (trace env ipText accounts now inputs) := by
  intro ip since
  refine Run.Each.countP_le fun older e newer hsplit hissues => ?_
  obtain ⟨row, hissued, hip, -, hsince⟩ := issuesIn_iff.1 hissues
  obtain ⟨hremote, hbetween⟩ := halone older e newer hsplit row hissued
  have hrow : row.createdIp = some ip := hremote.trans (of_decide_eq_true hip)
  have hchecked := checkedFirst_at hrun hsplit
  rw [act_of_issued hissued] at hchecked
  obtain ⟨cutoff, n, hn, hmem⟩ := hchecked.2 ip hrow
  have hfew : older.countP (issuesIn since fun _ row => decide (row.createdIp = some ip)) < rateLimitIpHourly := by
    refine few_older hrun hsplit ResetAct.countsIp hmem rfl rfl
      (fun before count between hbefore hact => le_countIp hrun (split_older hsplit hbefore) hact) hn
      (fun other hother row' hrow' => ?_) hsince
    rcases hbetween other hother row' hrow' with hnone | hne
    · rw [hrow] at hnone
      cases hnone
    · exact decide_eq_false (hrow ▸ hne)
  refine (countP_issuesIn_le fun other hother row' hissued' hip' => ?_).trans_lt hfew
  -- every token is stored with the address that it comes from
  obtain ⟨before, after, holder⟩ := List.append_of_mem hother
  have hremote' := (halone before other _ (split_older hsplit holder) row' hissued').1
  exact decide_eq_true (hremote'.trans (of_decide_eq_true hip'))

/-- In a run in which no token comes in between the count and the token of another request, there are few for an email
if they are stored under its normal form, and few for an address if they are stored with it. -/
theorem limited_of_alone (env : Env) (ipText : IpAddr → String) (accounts : Accounts) (now : Int) (inputs : List Input)
    (requests : Requests) (hrun : Run.exec (step env ipText) (start accounts now) inputs = some requests) :
    (Run.Each (EmailAlone env) (trace env ipText accounts now inputs) → FewForEmail env (trace env ipText accounts now inputs)) ∧
      (Run.Each IpAlone (trace env ipText accounts now inputs) → FewForIp (trace env ipText accounts now inputs)) :=
  ⟨fewForEmail_of_alone hrun, fewForIp_of_alone hrun⟩

def resetAda : Request := .requestPasswordReset " ada@example.org" (some (.v4 1)) none

/-- Four requests count before one of them stores its token. -/
def fourAtOnce : List Input :=
  (List.range 4).map (.spawn · resetAda) ++ (List.replicate 7 ((List.range 4).map (.step · fine))).flatten

def fourInTurn : List Input :=
  (List.range 4).map (.spawn · resetAda) ++ (List.replicate 7 (.step 0 fine) ++ (List.replicate 7 (.step 1 fine) ++
    (List.replicate 7 (.step 2 fine) ++ List.replicate 2 (.step 3 fine))))

theorem fourAtOnce_many : ∃ requests, Run.exec (step plain fun _ => "") (start ⟨∅⟩ 0) fourAtOnce = some requests ∧
    ¬ FewForEmail plain (trace plain (fun _ => "") ⟨∅⟩ 0 fourAtOnce) :=
  ⟨_, rfl, fun h => absurd (h "ada@example.org" 0) (by decide +kernel)⟩

theorem fourInTurn_few : ∃ requests, Run.exec (step plain fun _ => "") (start ⟨∅⟩ 0) fourInTurn = some requests ∧
    requests.result 3 = some (.error .rateLimitExceeded) ∧
    FewForEmail plain (trace plain (fun _ => "") ⟨∅⟩ 0 fourInTurn) ∧
      FewForIp (trace plain (fun _ => "") ⟨∅⟩ 0 fourInTurn) := by
  refine ⟨_, rfl, rfl, ?_⟩
  have hlimited := limited_of_alone plain (fun _ => "") ⟨∅⟩ 0 fourInTurn _ rfl
  exact ⟨hlimited.1 (by decide +kernel), hlimited.2 (by decide +kernel)⟩

end Runs

end PasswordReset

end Rustchat
