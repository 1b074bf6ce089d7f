import Mathlib.Data.Prod.Lex
import Rustchat.Lib.Assoc
import Rustchat.Lib.Page
import Rustchat.Lib.Run
import Rustchat.MmId

/-!
# The email worker (`jobs/email_worker.rs`)

One worker polls the queued emails and processes the rows of a poll one after the other. Whether a failed
attempt is followed by another one is decided on the attempts that had failed before it: the bound on the
attempts holds exactly as long as no attempt fails that uses the last one up (`EmailRun.bounded_iff_inTime`).
The audit events and the choice of the provider are left out.
-/

namespace Rustchat

inductive EmailStatus where
  | queued
  | sending
  | sent
  | failed
  | cancelled
deriving DecidableEq

inductive EmailPriority where
  | high
  | normal
  | low

def EmailPriority.rank : EmailPriority → ℕ
  | high => 1
  | normal => 2
  | low => 3

structure EmailOutbox where
  recipientEmail : String
  subject : String
  bodyText : Option String
  bodyHtml : Option String
  status : EmailStatus
  priority : EmailPriority
  scheduledAt : Option Int
  sendAfter : Option Int
  attemptCount : Int
  maxAttempts : Int
  nextAttemptAt : Option Int
  lastErrorCategory : Option String
  lastErrorMessage : Option String
  sentAt : Option Int
  createdAt : Int

structure EmailWorkerConfig where
  batchSize : Int
  maxRetries : Int

structure MailProviderSettings where
  fromAddress : String
  fromName : String

structure EmailAddress where
  email : String
  name : Option String

structure EmailContent where
  subject : String
  bodyText : String
  bodyHtml : Option String

/-- A call of `send_email`, with the row it is for. -/
structure ProviderCall where
  id : Uuid
  sender : EmailAddress
  recipient : EmailAddress
  content : EmailContent

/-- How an attempt ends: without a provider, or as the provider answers. -/
inductive Attempt where
  | noProvider (error : String)
  | refused (settings : MailProviderSettings) (error : String)
  | accepted (settings : MailProviderSettings)

def textContains (text part : String) : Bool := decide (part.toList <:+: text.toList)

def classifyError (error : String) : String :=
  let contains := textContains error.toLower
  if contains "authentication" || contains "auth" || contains "535" then "auth_failed"
  else if contains "certificate" || contains "tls" || contains "ssl" then "tls_error"
  else if contains "dns" || contains "resolve" then "dns_error"
  else if contains "timeout" || contains "timed out" then "timeout"
  else if contains "relay" || contains "denied" || contains "550" then "relay_denied"
  else if contains "rate" || contains "throttle" || contains "421" then "rate_limited"
  else if contains "recipient" || contains "mailbox" then "invalid_recipient"
  else "smtp_error"

namespace EmailOutbox

def due (email : EmailOutbox) (now : Int) : Prop :=
  email.status = .queued ∧ (email.scheduledAt.all (· ≤ now)) ∧ (email.sendAfter.all (· ≤ now)) ∧
    email.nextAttemptAt.all (· ≤ now)

instance (email : EmailOutbox) (now : Int) : Decidable (email.due now) := inferInstanceAs (Decidable (_ ∧ _))

/-- `max_attempts.min(max_retries)` -/
def limit (config : EmailWorkerConfig) (email : EmailOutbox) : Int := min email.maxAttempts config.maxRetries

def scheduleRetry (errorCategory errorMessage : String) (nextAttempt : Int) (email : EmailOutbox) :
    EmailOutbox :=
  { email with
    status := .queued
    attemptCount := email.attemptCount + 1
    nextAttemptAt := some nextAttempt
    lastErrorCategory := some errorCategory
    lastErrorMessage := some errorMessage }

def markFailed (errorCategory errorMessage : String) (email : EmailOutbox) : EmailOutbox :=
  { email with
    status := .failed
    lastErrorCategory := some errorCategory
    lastErrorMessage := some errorMessage }

def markSent (now : Int) (email : EmailOutbox) : EmailOutbox :=
  { email with status := .sent, sentAt := some now }

end EmailOutbox

/-- The table, the rows of the last poll that are still to be processed, the calls of the provider and
the emails of the failed attempts. -/
structure EmailRun where
  outbox : Assoc Uuid EmailOutbox
  batch : List (Uuid × EmailOutbox)
  calls : List ProviderCall
  failures : List Uuid

/-- `nextAttempt` is what `calculate_backoff` draws, nothing if it panics. -/
inductive EmailOp where
  | enqueue (id : Uuid) (email : EmailOutbox)
  | poll (now : Int)
  | process (attempt : Attempt) (now : Int) (nextAttempt : Option Int)

namespace EmailRun

variable (tie : Uuid ↪ ℕ) (config : EmailWorkerConfig)

def init : EmailRun := ⟨∅, [], [], []⟩

/-- `tie` is the order of the rows of one priority and one time. -/
def getPendingEmails (s : EmailRun) (now : Int) : List (Uuid × EmailOutbox) :=
  Page.page (fun e => (toLex (e.2.priority.rank, toLex (e.2.createdAt, tie e.1)) : ℕ ×ₗ Int ×ₗ ℕ)) config.batchSize.toNat
    (Assoc.views (fun id email => if email.due now then some (id, email) else none) s.outbox)

def update (s : EmailRun) (id : Uuid) (f : EmailOutbox → EmailOutbox) : EmailRun :=
  { s with outbox := Assoc.modify id f s.outbox }

/-- A panic ends the batch: the worker starts anew. -/
def handleDeliveryError (s : EmailRun) (id : Uuid) (email : EmailOutbox) (error : String) (nextAttempt : Option Int) :
    EmailRun :=
  let s := { s with failures := id :: s.failures }
  let errorCategory := classifyError error
  if email.attemptCount < email.limit config then
    match nextAttempt with
    | some nextAttempt => s.update id (.scheduleRetry errorCategory error nextAttempt)
    | none => { s with batch := [] }
  else s.update id (.markFailed errorCategory error)

def sendEmail (s : EmailRun) (id : Uuid) (email : EmailOutbox) (settings : MailProviderSettings) : EmailRun :=
  { s with calls :=
    { id := id
      sender := ⟨settings.fromAddress, some settings.fromName⟩
      recipient := ⟨email.recipientEmail, none⟩
      content := ⟨email.subject, email.bodyText.getD "", email.bodyHtml⟩ } :: s.calls }

def processEmail (s : EmailRun) (id : Uuid) (email : EmailOutbox) (attempt : Attempt) (now : Int)
    (nextAttempt : Option Int) : EmailRun :=
  let s := s.update id fun email => { email with status := .sending }
  match attempt with
  | .noProvider error => s.handleDeliveryError config id email error nextAttempt
  | .refused settings error => (s.sendEmail id email settings).handleDeliveryError config id email error nextAttempt
  | .accepted settings => (s.sendEmail id email settings).update id (.markSent now)

def enqueued (email : EmailOutbox) : EmailOutbox :=
  { email with
    status := .queued
    attemptCount := 0
    nextAttemptAt := none
    lastErrorCategory := none
    lastErrorMessage := none
    sentAt := none }

/-- The rows of a poll are processed before the next poll. -/
def step (s : EmailRun) : EmailOp → Option EmailRun
  | .enqueue id email => some (if id ∈ s.outbox then s else { s with outbox := s.outbox.insert id (enqueued email) })
  | .poll now => some (if s.batch = [] then { s with batch := s.getPendingEmails tie config now } else s)
  | .process attempt now nextAttempt => some (match s.batch with
    | (id, email) :: batch => ({ s with batch := batch }).processEmail config id email attempt now nextAttempt
    | [] => s)

def callsOf (s : EmailRun) (id : Uuid) : ℕ := s.calls.countP fun call => call.id = id

def failuresOf (s : EmailRun) (id : Uuid) : ℕ := s.failures.count id

/-- No email is given to the provider more often than its limit says, and one that has failed so often is failed. -/
def Bounded (s : EmailRun) : Prop :=
  ∀ id email, s.outbox.lookup id = some email → s.callsOf id ≤ (email.limit config).toNat ∧
    (0 < s.failuresOf id → email.limit config ≤ s.failuresOf id → email.status = .failed)

/-- A sent email stays sent, and the provider is not called for it again. -/
def KeepsSent (s t : EmailRun) : Prop :=
  ∀ id email, s.outbox.lookup id = some email → email.status = .sent →
    (∃ email', t.outbox.lookup id = some email' ∧ email'.status = .sent) ∧ t.callsOf id = s.callsOf id

/-- The attempt of an email does not fail as the last one. -/
def InTimeFor (email : EmailOutbox) : Attempt → Prop
  | .noProvider _ => email.limit config ≤ 0 ∨ email.attemptCount + 1 < email.limit config
  | .refused _ _ => email.attemptCount + 1 < email.limit config
  | .accepted _ => 0 < email.limit config

def InTime (s : EmailRun) : EmailOp → Prop
  | .enqueue _ _ | .poll _ => True
  | .process attempt _ _ => ∀ e ∈ s.batch.head?, InTimeFor config e.2 attempt

/-! ### One attempt -/

end EmailRun

def Attempt.calls : Attempt → Bool
  | noProvider _ => false
  | refused _ _ | accepted _ => true

def Attempt.fails : Attempt → Bool
  | noProvider _ | refused _ _ => true
  | accepted _ => false

structure EmailOutbox.Processed (config : EmailWorkerConfig) (attempt : Attempt)
    (email email' : EmailOutbox) : Prop where
  maxAttempts : email'.maxAttempts = email.maxAttempts
  retry : attempt.fails → email.attemptCount < email.limit config →
    email'.status = .queued ∧ email'.attemptCount = email.attemptCount + 1 ∨ email'.status = .sending
  final : attempt.fails → ¬ email.attemptCount < email.limit config → email'.status = .failed
  sent : ¬ attempt.fails → email'.status = .sent

structure EmailRun.Processed (config : EmailWorkerConfig) (id : Uuid) (email : EmailOutbox) (attempt : Attempt)
    (s s' : EmailRun) : Prop where
  row : ∃ email', s'.outbox.lookup id = some email' ∧ email.Processed config attempt email'
  others : ∀ k, k ≠ id → s'.outbox.lookup k = s.outbox.lookup k
  batch : s'.batch.Sublist s.batch
  calls : ∀ k, s'.callsOf k = s.callsOf k + if k = id then attempt.calls.toNat else 0
  failures : ∀ k, s'.failuresOf k = s.failuresOf k + if k = id then attempt.fails.toNat else 0

namespace EmailRun

variable {tie config} {s s' : EmailRun} {id : Uuid} {email : EmailOutbox} {attempt : Attempt} {now : Int}
  {nextAttempt : Option Int}

theorem callsOf_sendEmail (s : EmailRun) (email : EmailOutbox) (settings : MailProviderSettings) (k : Uuid) :
    (s.sendEmail id email settings).callsOf k = s.callsOf k + if k = id then 1 else 0 := by
  unfold callsOf sendEmail
  by_cases hk : k = id
  · subst hk
    simp
  · simp [hk, Ne.symm hk]

theorem failuresOf_cons (s : EmailRun) (k : Uuid) :
    failuresOf { s with failures := id :: s.failures } k = s.failuresOf k + if k = id then 1 else 0 := by
  unfold failuresOf
  by_cases hk : k = id
  · subst hk
    simp
  · simp [hk, Ne.symm hk]

theorem handleDeliveryError_spec (config : EmailWorkerConfig) {s : EmailRun} (email : EmailOutbox) (error : String)
    (nextAttempt : Option Int) {row : EmailOutbox} (hrow : s.outbox.lookup id = some row) (hmax : row.maxAttempts = email.maxAttempts)
    (hcount : row.attemptCount = email.attemptCount) (hsending : row.status = .sending) :
    let s' := s.handleDeliveryError config id email error nextAttempt
    (∃ email', s'.outbox.lookup id = some email' ∧ email.Processed config (.noProvider error) email') ∧
      (∀ k, k ≠ id → s'.outbox.lookup k = s.outbox.lookup k) ∧ s'.batch.Sublist s.batch ∧ s'.calls = s.calls ∧
      s'.failures = id :: s.failures := by
  have hupdate (f : EmailOutbox → EmailOutbox) (k : Uuid) : (Assoc.modify id f s.outbox).lookup k =
      if k = id then some (f row) else s.outbox.lookup k := by
    rw [Assoc.lookup_modify, hrow]
    rfl
  unfold handleDeliveryError
  by_cases hlt : email.attemptCount < email.limit config
  · cases nextAttempt with
    | some nextAttempt =>
      simp only [if_pos hlt, update, hupdate]
      refine ⟨⟨_, rfl, hmax, fun _ _ => .inl ⟨rfl, ?_⟩, fun _ hn => absurd hlt hn, fun hn => absurd rfl hn⟩,
        fun k hk => if_neg hk, List.Sublist.refl _, trivial, trivial⟩
      exact congrArg (· + 1) hcount
    | none =>
      simp only [if_pos hlt]
      exact ⟨⟨row, hrow, hmax, fun _ _ => .inr hsending, fun _ hn => absurd hlt hn, fun hn => absurd rfl hn⟩,
        fun _ _ => trivial, List.nil_sublist _, trivial, trivial⟩
  · simp only [if_neg hlt, update, hupdate]
    exact ⟨⟨_, rfl, hmax, fun _ hn => absurd hn hlt, fun _ _ => rfl, fun hn => absurd rfl hn⟩, fun k hk => if_neg hk,
      List.Sublist.refl _, trivial, trivial⟩

theorem processEmail_spec (config : EmailWorkerConfig) {s : EmailRun} (hrow : s.outbox.lookup id = some email)
    (attempt : Attempt) (now : Int) (nextAttempt : Option Int) :
    Processed config id email attempt s (s.processEmail config id email attempt now nextAttempt) := by
  have hupdate (f : EmailOutbox → EmailOutbox) (k : Uuid) : (Assoc.modify id f s.outbox).lookup k =
      if k = id then some (f email) else s.outbox.lookup k := by
    rw [Assoc.lookup_modify, hrow]
    rfl
  have hsending : (s.update id fun email => { email with status := .sending }).outbox.lookup id =
      some { email with status := .sending } := (hupdate _ id).trans (if_pos rfl)
  have hothers {k : Uuid} (hk : k ≠ id) : (s.update id fun email => { email with status := .sending }).outbox.lookup k =
      s.outbox.lookup k := (hupdate _ k).trans (if_neg hk)
  cases attempt with
  | noProvider error =>
    obtain ⟨hemail, hrest, hbatch, hcalls, hfailures⟩ :=
      handleDeliveryError_spec config email error nextAttempt hsending rfl rfl rfl
    refine ⟨hemail, fun k hk => (hrest k hk).trans (hothers hk), hbatch, fun k => ?_, fun k => ?_⟩
    · rw [show Attempt.calls (.noProvider error) = false from rfl, Bool.toNat_false, ite_self]
      exact congrArg (List.countP _) hcalls
    · exact (congrArg (List.count k) hfailures).trans (failuresOf_cons s k)
  | refused settings error =>
    have hsent : ((s.update id fun email => { email with status := .sending }).sendEmail id email settings).outbox.lookup id =
        some { email with status := .sending } := hsending
    obtain ⟨⟨email', hl, hp⟩, hrest, hbatch, hcalls, hfailures⟩ :=
      handleDeliveryError_spec config email error nextAttempt hsent rfl rfl rfl
    refine ⟨⟨email', hl, hp.maxAttempts, hp.retry, hp.final, hp.sent⟩, fun k hk => (hrest k hk).trans (hothers hk), hbatch,
      fun k => ?_, fun k => ?_⟩
    · exact (congrArg (List.countP _) hcalls).trans (callsOf_sendEmail s email settings k)
    · exact (congrArg (List.count k) hfailures).trans (failuresOf_cons s k)
  | accepted settings =>
    have hlookup (k : Uuid) : (s.processEmail config id email (.accepted settings) now nextAttempt).outbox.lookup k =
        if k = id then some ({ email with status := .sending }.markSent now) else s.outbox.lookup k := by
      show (Assoc.modify id (.markSent now) (Assoc.modify id _ s.outbox)).lookup k = _
      rw [Assoc.lookup_modify, hupdate, hupdate, if_pos rfl]
      split
      · rfl
      · rfl
    refine ⟨⟨_, (hlookup id).trans (if_pos rfl), rfl, fun hf => absurd hf Bool.false_ne_true,
      fun hf => absurd hf Bool.false_ne_true, fun _ => rfl⟩, fun k hk => (hlookup k).trans (if_neg hk), List.Sublist.refl _,
      fun k => callsOf_sendEmail s email settings k, fun k => ?_⟩
    rw [show Attempt.fails (.accepted settings) = false from rfl, Bool.toNat_false, ite_self]
    rfl

/-! ### One step -/

/-- The batch holds queued rows as they stand in the table, and a queued row counts the attempts that failed. -/
structure Inv (s : EmailRun) : Prop where
  batch : ∀ e ∈ s.batch, s.outbox.lookup e.1 = some e.2 ∧ e.2.status = .queued
  nodup : (s.batch.map Prod.fst).Nodup
  counts : ∀ id email, s.outbox.lookup id = some email → email.status = .queued →
    email.attemptCount = s.failuresOf id ∧ s.callsOf id ≤ s.failuresOf id
  fresh : ∀ id, id ∉ s.outbox → s.callsOf id = 0 ∧ s.failuresOf id = 0

theorem mem_getPendingEmails {e : Uuid × EmailOutbox} (h : e ∈ s.getPendingEmails tie config now) :
    s.outbox.lookup e.1 = some e.2 ∧ e.2.status = .queued := by
  obtain ⟨id, email, hl, he⟩ := Assoc.mem_views.1 (Page.mem_of_mem_page h)
  obtain ⟨hdue, he⟩ := Option.ite_none_right_eq_some.1 he
  rw [← Option.some.inj he]
  exact ⟨hl, hdue.1⟩

theorem nodup_getPendingEmails : ((s.getPendingEmails tie config now).map Prod.fst).Nodup := by
  refine Page.nodup_map_page (Assoc.nodup_map_views fun id email e he => ?_)
  obtain ⟨-, he⟩ := Option.ite_none_right_eq_some.1 he
  rw [← Option.some.inj he]

theorem step_cases {op : EmailOp} (h : s.step tie config op = some s') :
    s' = s ∧ s.InTime config op ∨
    (∃ id email, op = .enqueue id email ∧ id ∉ s.outbox ∧
      s' = { s with outbox := s.outbox.insert id (enqueued email) }) ∨
    (∃ now, op = .poll now ∧ s' = { s with batch := s.getPendingEmails tie config now }) ∨
    ∃ attempt now nextAttempt id email batch, op = .process attempt now nextAttempt ∧ s.batch = (id, email) :: batch ∧
      s' = ({ s with batch := batch }).processEmail config id email attempt now nextAttempt := by
  cases op with
  | enqueue id email =>
    rw [step, Option.some.injEq] at h
    split at h
    · exact .inl ⟨h.symm, trivial⟩
    · next hid => exact .inr (.inl ⟨id, email, rfl, hid, h.symm⟩)
  | poll now =>
    rw [step, Option.some.injEq] at h
    split at h
    · exact .inr (.inr (.inl ⟨now, rfl, h.symm⟩))
    · exact .inl ⟨h.symm, trivial⟩
  | process attempt now nextAttempt =>
    rw [step, Option.some.injEq] at h
    split at h
    · next id email batch hb => exact .inr (.inr (.inr ⟨attempt, now, nextAttempt, id, email, batch, rfl, hb, h.symm⟩))
    · next hb =>
      refine .inl ⟨h.symm, fun e he => ?_⟩
      rw [hb] at he
      cases he

theorem Inv.processed (h : s.Inv) {batch : List (Uuid × EmailOutbox)} (hb : s.batch = (id, email) :: batch)
    (config : EmailWorkerConfig) (attempt : Attempt) (now : Int) (nextAttempt : Option Int) :
    s.outbox.lookup id = some email ∧ email.status = .queued ∧ Processed config id email attempt { s with batch := batch }
      (({ s with batch := batch }).processEmail config id email attempt now nextAttempt) := by
  obtain ⟨hrow, hqueued⟩ := h.batch (id, email) (by rw [hb]; exact List.mem_cons_self)
  have hrow' : ({ s with batch := batch } : EmailRun).outbox.lookup id = some email := hrow
  exact ⟨hrow, hqueued, processEmail_spec config hrow' attempt now nextAttempt⟩

theorem Inv.process (h : s.Inv) {batch : List (Uuid × EmailOutbox)} (hb : s.batch = (id, email) :: batch)
    (hp : Processed config id email attempt { s with batch := batch } s') : s'.Inv := by
  obtain ⟨hrow, hqueued⟩ := h.batch (id, email) (by rw [hb]; exact List.mem_cons_self)
  have hnodup := h.nodup
  rw [hb, List.map_cons, List.nodup_cons] at hnodup
  obtain ⟨email', hrow', hemail⟩ := hp.row
  obtain ⟨hcount, hcalls⟩ := h.counts id email hrow hqueued
  refine ⟨fun e he => ?_, hnodup.2.sublist (hp.batch.map _), fun k row hl hq => ?_, fun k hk => ?_⟩
  · have he' : e ∈ batch := hp.batch.subset he
    have hne : e.1 ≠ id := fun hid => hnodup.1 (List.mem_map.2 ⟨e, he', hid⟩)
    rw [hp.others e.1 hne]
    exact h.batch e (by rw [hb]; exact List.mem_cons_of_mem _ he')
  · rw [hp.calls, hp.failures]
    by_cases hk : k = id
    · subst hk
      obtain rfl := Option.some.inj (hrow'.symm.trans hl)
      have hfails : attempt.fails = true := by
        by_contra hn
        rw [hemail.sent hn] at hq
        cases hq
      have hlt : email.attemptCount < email.limit config := by
        by_contra hn
        rw [hemail.final hfails hn] at hq
        cases hq
      rcases hemail.retry hfails hlt with ⟨-, hnext⟩ | hsending
      · rw [if_pos rfl, if_pos rfl, hfails]
        refine ⟨?_, Nat.add_le_add hcalls (Bool.toNat_le _)⟩
        rw [hnext, hcount]
        rfl
      · rw [hsending] at hq
        cases hq
    · rw [if_neg hk, if_neg hk]
      exact h.counts k row ((hp.others k hk).symm.trans hl) hq
  · have hne : k ≠ id := by
      rintro rfl
      exact hk (AList.lookup_isSome.1 (by rw [hrow']; rfl))
    rw [hp.calls, hp.failures, if_neg hne, if_neg hne]
    refine h.fresh k fun hmem => hk (AList.lookup_isSome.1 ?_)
    rw [hp.others k hne]
    exact AList.lookup_isSome.2 hmem

theorem Inv.step {op : EmailOp} (h : s.Inv) (hs : s.step tie config op = some s') : s'.Inv := by
  rcases step_cases hs with ⟨rfl, -⟩ | ⟨id, email, -, hid, rfl⟩ | ⟨now, -, rfl⟩ |
    ⟨attempt, now, nextAttempt, id, email, batch, -, hb, rfl⟩
  · exact h
  · refine ⟨fun e he => ?_, h.nodup, fun k row hl hq => ?_, fun k hk => ?_⟩
    · obtain ⟨hl, hq⟩ := h.batch e he
      refine ⟨?_, hq⟩
      rw [Assoc.lookup_insert_eq, if_neg, hl]
      rintro rfl
      exact hid (AList.lookup_isSome.1 (by rw [hl]; rfl))
    · rcases Assoc.lookup_insert_cases hl with ⟨rfl, rfl⟩ | ⟨-, hl⟩
      · obtain ⟨hc, hf⟩ := h.fresh k hid
        exact ⟨by show (0 : Int) = (s.failuresOf k : Int); omega, by show s.callsOf k ≤ s.failuresOf k; omega⟩
      · exact h.counts k row hl hq
    · exact h.fresh k fun hmem => hk ((AList.mem_insert _).2 (.inr hmem))
  · exact ⟨fun e he => mem_getPendingEmails he, nodup_getPendingEmails, h.counts, h.fresh⟩
  · exact h.process hb (h.processed hb config attempt now nextAttempt).2.2

theorem Inv.keepsSent {op : EmailOp} (h : s.Inv) (hs : s.step tie config op = some s') : s.KeepsSent s' := by
  rcases step_cases hs with ⟨rfl, -⟩ | ⟨id, email, -, hid, rfl⟩ | ⟨now, -, rfl⟩ |
    ⟨attempt, now, nextAttempt, id, email, batch, -, hb, rfl⟩
  · exact fun id email hl hsent => ⟨⟨email, hl, hsent⟩, rfl⟩
  · refine fun k row hl hsent => ⟨⟨row, ?_, hsent⟩, rfl⟩
    rw [Assoc.lookup_insert_eq, if_neg, hl]
    rintro rfl
    exact hid (AList.lookup_isSome.1 (by rw [hl]; rfl))
  · exact fun id email hl hsent => ⟨⟨email, hl, hsent⟩, rfl⟩
  · obtain ⟨hrow, hqueued, hp⟩ := h.processed hb config attempt now nextAttempt
    intro k row hl hsent
    have hne : k ≠ id := by
      rintro rfl
      rw [Option.some.inj (hl.symm.trans hrow), hqueued] at hsent
      cases hsent
    exact ⟨⟨row, (hp.others k hne).trans hl, hsent⟩, (hp.calls k).trans (by rw [if_neg hne]; rfl)⟩

/-- The case analysis of one attempt: the failures before it are within the limit, which decides the rest. -/
theorem Bounded.process_iff (hI : s.Inv) (hbound : s.Bounded config) {batch : List (Uuid × EmailOutbox)}
    (hb : s.batch = (id, email) :: batch)
    (hp : Processed config id email attempt { s with batch := batch } s') :
    s'.Bounded config ↔ s.InTime config (.process attempt now nextAttempt) := by
  obtain ⟨hrow, hqueued⟩ := hI.batch (id, email) (by rw [hb]; exact List.mem_cons_self)
  obtain ⟨email', hrow', hemail⟩ := hp.row
  obtain ⟨hcount, hcalls⟩ := hI.counts id email hrow hqueued
  obtain ⟨hle, hfailed⟩ := hbound id email hrow
  have hroom (hpos : 0 < s.failuresOf id) : (s.failuresOf id : Int) < email.limit config := by
    by_contra hn
    rw [hfailed hpos (not_lt.1 hn)] at hqueued
    cases hqueued
  have hlimit : email'.limit config = email.limit config := by
    unfold EmailOutbox.limit
    rw [hemail.maxAttempts]
  have hcalls' : s'.callsOf id = s.callsOf id + attempt.calls.toNat :=
    (hp.calls id).trans (by rw [if_pos rfl]; rfl)
  have hfailures' : s'.failuresOf id = s.failuresOf id + attempt.fails.toNat :=
    (hp.failures id).trans (by rw [if_pos rfl]; rfl)
  have hred : s'.Bounded config ↔ s'.callsOf id ≤ (email'.limit config).toNat ∧
      (0 < s'.failuresOf id → email'.limit config ≤ s'.failuresOf id → email'.status = .failed) := by
    refine ⟨fun h => h id email' hrow', fun h k row hl => ?_⟩
    by_cases hk : k = id
    · subst hk
      obtain rfl := Option.some.inj (hrow'.symm.trans hl)
      exact h
    · rw [hp.calls, hp.failures, if_neg hk, if_neg hk]
      exact hbound k row ((hp.others k hk).symm.trans hl)
  rw [hred, hcalls', hfailures', hlimit]
  have hin : s.InTime config (.process attempt now nextAttempt) ↔ InTimeFor config email attempt := by
    rw [InTime, hb, List.head?_cons]
    exact ⟨fun h => h _ rfl, fun h e he => Option.some.inj he ▸ h⟩
  rw [hin]
  cases attempt with
  | noProvider error =>
    by_cases hlt : email.attemptCount < email.limit config
    · have hne : email'.status ≠ .failed := by
        rcases hemail.retry rfl hlt with ⟨h, -⟩ | h <;> rw [h] <;> decide
      simp only [hne, imp_false, not_le, InTimeFor, Attempt.calls, Attempt.fails, Bool.toNat_false,
        Bool.toNat_true]
      omega
    · have hstatus := hemail.final rfl hlt
      simp only [hstatus, implies_true, and_true, InTimeFor, Attempt.calls, Attempt.fails,
        Bool.toNat_false, Bool.toNat_true]
      omega
  | refused settings error =>
    by_cases hlt : email.attemptCount < email.limit config
    · have hne : email'.status ≠ .failed := by
        rcases hemail.retry rfl hlt with ⟨h, -⟩ | h <;> rw [h] <;> decide
      simp only [hne, imp_false, not_le, InTimeFor, Attempt.calls, Attempt.fails, Bool.toNat_true]
      omega
    · have hstatus := hemail.final rfl hlt
      simp only [hstatus, implies_true, and_true, InTimeFor, Attempt.calls, Attempt.fails, Bool.toNat_true]
      omega
  | accepted settings =>
    have hne : email'.status ≠ .failed := by
      rw [hemail.sent Bool.false_ne_true]
      decide
    simp only [hne, imp_false, not_le, InTimeFor, Attempt.calls, Attempt.fails, Bool.toNat_false,
      Bool.toNat_true]
    omega

theorem Bounded.step_iff {op : EmailOp} (hI : s.Inv) (hbound : s.Bounded config) (hs : s.step tie config op = some s') :
    s'.Bounded config ↔ s.InTime config op := by
  rcases step_cases hs with ⟨rfl, hin⟩ | ⟨id, email, rfl, hid, rfl⟩ | ⟨now, rfl, rfl⟩ |
    ⟨attempt, now, nextAttempt, id, email, batch, rfl, hb, rfl⟩
  · exact iff_of_true hbound hin
  · refine iff_of_true (fun k row hl => ?_) trivial
    rcases Assoc.lookup_insert_cases hl with ⟨rfl, rfl⟩ | ⟨-, hl⟩
    · obtain ⟨hc, hf⟩ := hI.fresh k hid
      refine ⟨le_of_eq_of_le hc (Nat.zero_le _), fun hpos => ?_⟩
      exact absurd hpos (by show ¬ 0 < s.failuresOf k; omega)
    · exact hbound k row hl
  · exact iff_of_true hbound trivial
  · exact hbound.process_iff hI hb (hI.processed hb config attempt now nextAttempt).2.2

/-- In every run a sent email stays sent and is not sent again, and the attempts are bounded if and only if no
attempt fails that uses the last one up. -/
theorem bounded_iff_inTime (tie : Uuid ↪ ℕ) (config : EmailWorkerConfig) (ops : List EmailOp) :
    Run.AllSpans (step tie config) KeepsSent init ops ∧
      (Run.AllStates (step tie config) (Bounded config) init ops ↔ Run.AllSteps (step tie config) (InTime config) init ops) := by
  have hempty (id : Uuid) (email : EmailOutbox) : init.outbox.lookup id ≠ some email := by
    intro hl
    rw [init, AList.lookup_empty] at hl
    cases hl
  have hinit : Inv init := ⟨fun e he => absurd he List.not_mem_nil, List.nodup_nil,
    fun id email hl => absurd hl (hempty id email), fun _ _ => ⟨rfl, rfl⟩⟩
  constructor
  · refine Run.allSpans_of_step (fun s id email hl hsent => ⟨⟨email, hl, hsent⟩, rfl⟩) (fun s t u hst htu id email hl hsent => ?_)
      (fun s op s' h hs => h.step hs) (fun s op s' h hs => h.keepsSent hs) hinit
    obtain ⟨⟨email', hl', hsent'⟩, hcalls⟩ := hst id email hl hsent
    obtain ⟨h, hcalls'⟩ := htu id email' hl' hsent'
    exact ⟨h, hcalls'.trans hcalls⟩
  · have henabled (s : EmailRun) (op : EmailOp) : ∃ s', s.step tie config op = some s' := by
      cases op with
      | enqueue id email => exact ⟨_, rfl⟩
      | poll now => exact ⟨_, rfl⟩
      | process attempt now nextAttempt => exact ⟨_, rfl⟩
    obtain ⟨t, ht⟩ := Run.exists_exec_of_enabled henabled init ops
    exact Run.allStates_iff_allSteps (fun s op s' h hs => h.step hs) (fun s op s' hI hb hs => hb.step_iff hI hs) hinit
      (fun id email hl => absurd hl (hempty id email)) ht

def refusedPolls (n : ℕ) : List EmailOp :=
  .enqueue 7 ⟨"ann@a.b", "Hello", none, none, .queued, .normal, none, none, 0, 3, none, none, none, none, 0⟩ ::
    (List.replicate n [.poll 0, .process (.refused ⟨"chat@a.b", "Chat"⟩ "timeout") 0 (some 0)]).flatten

/-- The provider is called four times for an email with three attempts. -/
theorem four_calls : ¬ Run.AllStates (step ⟨BitVec.toNat, BitVec.toNat_injective⟩ ⟨100, 3⟩) (Bounded ⟨100, 3⟩) init
    (refusedPolls 4) := by
  intro h
  have hrun : ((Run.exec (step ⟨BitVec.toNat, BitVec.toNat_injective⟩ ⟨100, 3⟩) init (refusedPolls 4)).bind fun s =>
      (s.outbox.lookup 7).map fun email => (s.callsOf 7, email.limit ⟨100, 3⟩)) = some (4, 3) := by
    decide +kernel
  obtain ⟨s, hs, hrow⟩ := Option.bind_eq_some_iff.1 hrun
  obtain ⟨email, hemail, heq⟩ := Option.map_eq_some_iff.1 hrow
  obtain ⟨hcalls, hlimit⟩ := Prod.mk.injEq .. ▸ heq
  have hle := (h.last hs 7 email hemail).1
  rw [hcalls, hlimit] at hle
  exact absurd hle (by decide)

end EmailRun
end Rustchat
