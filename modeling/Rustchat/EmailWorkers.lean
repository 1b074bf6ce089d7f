import Rustchat.EmailWorker

/-!
# Several email workers (`jobs/email_worker.rs`)

Every worker polls, and then takes one row of its poll after the other: it marks the row, chooses a provider, sends the
email and records how that ended. No transaction is open, so that the locks of a poll are gone with its statement, and
others come in between any two statements. A row is marked whatever has become of it since the poll. As long as every
row that is marked is still queued for the attempt that was polled, no two workers send an email for one attempt
(`EmailWorkers.oneSender_of_claims`).
-/

namespace Rustchat

inductive EmailStage where
  | marked
  | chosen (settings : MailProviderSettings)
  | refused (error : String)
  | accepted

structure EmailDelivery where
  id : Uuid
  -- the row as it was polled
  email : EmailOutbox
  stage : EmailStage

structure EmailWorkerTask where
  batch : List (Uuid × EmailOutbox)
  current : Option EmailDelivery

def EmailWorkerTask.idle : EmailWorkerTask := ⟨[], none⟩

/-- A call of the provider, with the worker and the attempts that were counted when the row was polled. -/
structure EmailSend where
  worker : ℕ
  attempt : Int
  call : ProviderCall

structure EmailWorkers where
  outbox : Assoc Uuid EmailOutbox
  workers : ℕ → EmailWorkerTask
  sends : List EmailSend

/-- A statement of a worker may fail, and a poll skips the rows that are locked just then. `nextAttempt` is what
`calculate_backoff` draws, nothing if it panics. -/
inductive EmailWorkersOp where
  | enqueue (id : Uuid) (email : EmailOutbox)
  | getPendingEmails (worker : ℕ) (now : Int) (locked : List Uuid)
  | updateStatus (worker : ℕ) (succeeds : Bool)
  | getOrCreateProvider (worker : ℕ) (provider : Except String MailProviderSettings)
  | sendEmail (worker : ℕ) (answer : Except String Unit)
  | record (worker : ℕ) (now : Int) (nextAttempt : Option Int) (succeeds : Bool)

namespace EmailWorkers

variable (tie : Uuid ↪ ℕ) (config : EmailWorkerConfig)

def start (outbox : Assoc Uuid EmailOutbox) : EmailWorkers := ⟨outbox, fun _ => .idle, []⟩

def setTask (s : EmailWorkers) (worker : ℕ) (task : EmailWorkerTask) : EmailWorkers :=
  { s with workers := Function.update s.workers worker task }

def update (s : EmailWorkers) (succeeds : Bool) (id : Uuid) (f : EmailOutbox → EmailOutbox) : EmailWorkers :=
  if succeeds then { s with outbox := Assoc.modify id f s.outbox } else s

/-- `tie` is the order of the rows of one priority and one time. -/
def getPendingEmails (s : EmailWorkers) (now : Int) (locked : List Uuid) : List (Uuid × EmailOutbox) :=
  Page.page (fun e => (toLex (e.2.priority.rank, toLex (e.2.createdAt, tie e.1)) : ℕ ×ₗ Int ×ₗ ℕ)) config.batchSize.toNat
    (Assoc.views (fun id email => if email.due now ∧ id ∉ locked then some (id, email) else none) s.outbox)

/-- How a delivery ends: with one statement, or with a panic, and the worker starts anew. -/
def handleDeliveryError (s : EmailWorkers) (worker : ℕ) (batch : List (Uuid × EmailOutbox)) (id : Uuid) (email : EmailOutbox)
    (error : String) (nextAttempt : Option Int) (succeeds : Bool) : EmailWorkers :=
  let errorCategory := classifyError error
  if email.attemptCount < email.limit config then
    match nextAttempt with
    | some nextAttempt =>
      (s.update succeeds id (.scheduleRetry errorCategory error nextAttempt)).setTask worker ⟨batch, none⟩
    | none => s.setTask worker .idle
  else (s.update succeeds id (.markFailed errorCategory error)).setTask worker ⟨batch, none⟩

def step (s : EmailWorkers) : EmailWorkersOp → Option EmailWorkers
  | .enqueue id email =>
    some (if id ∈ s.outbox then s else { s with outbox := s.outbox.insert id (EmailRun.enqueued email) })
  | .getPendingEmails worker now locked =>
    match s.workers worker with
    | ⟨[], none⟩ => some (s.setTask worker ⟨s.getPendingEmails tie config now locked, none⟩)
    | _ => none
  | .updateStatus worker succeeds =>
    match s.workers worker with
    | ⟨(id, email) :: batch, none⟩ =>
      some ((s.update succeeds id fun row => { row with status := .sending }).setTask worker
        ⟨batch, if succeeds then some ⟨id, email, .marked⟩ else none⟩)
    | _ => none
  | .getOrCreateProvider worker provider =>
    match s.workers worker with
    | ⟨batch, some ⟨id, email, .marked⟩⟩ =>
      let stage := match provider with
        | .ok settings => .chosen settings
        | .error error => .refused error
      some (s.setTask worker ⟨batch, some ⟨id, email, stage⟩⟩)
    | _ => none
  | .sendEmail worker answer =>
    match s.workers worker with
    | ⟨batch, some ⟨id, email, .chosen settings⟩⟩ =>
      let call : ProviderCall :=
        { id := id
          sender := ⟨settings.fromAddress, some settings.fromName⟩
          recipient := ⟨email.recipientEmail, none⟩
          content := ⟨email.subject, email.bodyText.getD "", email.bodyHtml⟩ }
      let stage := match answer with
        | .ok _ => .accepted
        | .error error => .refused error
      some ({ s with sends := ⟨worker, email.attemptCount, call⟩ :: s.sends }.setTask worker
        ⟨batch, some ⟨id, email, stage⟩⟩)
    | _ => none
  | .record worker now nextAttempt succeeds =>
    match s.workers worker with
    | ⟨batch, some ⟨id, _, .accepted⟩⟩ => some ((s.update succeeds id (.markSent now)).setTask worker ⟨batch, none⟩)
    | ⟨batch, some ⟨id, email, .refused error⟩⟩ =>
      some (s.handleDeliveryError config worker batch id email error nextAttempt succeeds)
    | _ => none

/-- No two workers send an email for the same attempt. -/
def OneSender (s : EmailWorkers) : Prop :=
  ∀ a ∈ s.sends, ∀ b ∈ s.sends, a.call.id = b.call.id → a.attempt = b.attempt → a.worker = b.worker

/-- A row that is marked is still queued for the attempt that was polled. -/
def Claims (s : EmailWorkers) : EmailWorkersOp → Prop
  | .updateStatus worker succeeds => succeeds = true → ∀ e ∈ (s.workers worker).batch.head?,
    ∃ row, s.outbox.lookup e.1 = some row ∧ row.status = .queued ∧ row.attemptCount = e.2.attemptCount
  | _ => True

/-! ### One step -/

variable {tie config} {s s' : EmailWorkers} {w v : ℕ} {id : Uuid} {email : EmailOutbox} {op : EmailWorkersOp}

/-- A row goes on: to a later attempt, or it stays with this one and is not put back into the queue. -/
def GoesOn (row row' : EmailOutbox) : Prop :=
  row.attemptCount < row'.attemptCount ∨
    row.attemptCount = row'.attemptCount ∧ (row.status ≠ .queued → row'.status ≠ .queued)

/-- Every marked row is in the hands of one worker, and what was sent for an attempt was sent by the worker who has it,
or the attempt is over. -/
structure Inv (s : EmailWorkers) : Prop where
  exclusive : ∀ w v d e, (s.workers w).current = some d → (s.workers v).current = some e → d.id = e.id → w = v
  sending : ∀ w d, (s.workers w).current = some d → ∃ row, s.outbox.lookup d.id = some row ∧
    row.status = .sending ∧ row.attemptCount = d.email.attemptCount
  sent : ∀ x ∈ s.sends, ∃ row, s.outbox.lookup x.call.id = some row ∧
    (x.attempt < row.attemptCount ∨ x.attempt = row.attemptCount ∧ row.status ≠ .queued)
  sender : ∀ x ∈ s.sends, ∀ w d, (s.workers w).current = some d → d.id = x.call.id →
    d.email.attemptCount = x.attempt → w = x.worker
  one : s.OneSender

theorem goesOn_self (row : EmailOutbox) : GoesOn row row := .inr ⟨rfl, id⟩

theorem workers_setTask {task : EmailWorkerTask} :
    (s.setTask w task).workers v = if v = w then task else s.workers v := Function.update_apply _ _ _ _

/-- A step after which the rows have gone on, and every delivery that is under way was so before. -/
theorem Inv.mono (h : s.Inv)
    (hrows : ∀ id row, s.outbox.lookup id = some row → ∃ row', s'.outbox.lookup id = some row' ∧ GoesOn row row')
    (hcurrent : ∀ w d', (s'.workers w).current = some d' → ∃ d, (s.workers w).current = some d ∧ d.id = d'.id ∧
      d.email = d'.email ∧ s'.outbox.lookup d.id = s.outbox.lookup d.id)
    (hsends : s'.sends = s.sends) : s'.Inv := by
  refine ⟨fun w v d' e' hd he heq => ?_, fun w d' hd => ?_, fun x hx => ?_,
    fun x hx w d' hd hid hattempt => ?_, ?_⟩
  · obtain ⟨d, hd, hdid, -⟩ := hcurrent w d' hd
    obtain ⟨e, he, heid, -⟩ := hcurrent v e' he
    exact h.exclusive w v d e hd he (hdid.trans (heq.trans heid.symm))
  · obtain ⟨d, hd, hid, hemail, hrow⟩ := hcurrent w d' hd
    rw [← hid, ← hemail, hrow]
    exact h.sending w d hd
  · rw [hsends] at hx
    obtain ⟨row, hrow, hover⟩ := h.sent x hx
    obtain ⟨row', hrow', hgoes⟩ := hrows _ row hrow
    refine ⟨row', hrow', ?_⟩
    rcases hover with hlt | ⟨heq, hstatus⟩
    · rcases hgoes with hgoes | ⟨hgoes, -⟩
      · exact .inl (hlt.trans hgoes)
      · exact .inl (hlt.trans_eq hgoes)
    · rcases hgoes with hgoes | ⟨hgoes, hkeep⟩
      · exact .inl (heq.trans_lt hgoes)
      · exact .inr ⟨heq.trans hgoes, hkeep hstatus⟩
  · rw [hsends] at hx
    obtain ⟨d, hd, hdid, hemail, -⟩ := hcurrent w d' hd
    exact h.sender x hx w d hd (hdid.trans hid) (hemail ▸ hattempt)
  · unfold OneSender
    rw [hsends]
    exact h.one

theorem Inv.setTask (h : s.Inv) {task : EmailWorkerTask}
    (htask : ∀ d', task.current = some d' → ∃ d, (s.workers w).current = some d ∧ d.id = d'.id ∧ d.email = d'.email) :
    (s.setTask w task).Inv := by
  refine h.mono (fun id row hrow => ⟨row, hrow, goesOn_self row⟩) (fun v d' hd => ?_) rfl
  rw [workers_setTask] at hd
  split at hd
  · next hv =>
    obtain ⟨d, hd, hid, hemail⟩ := htask d' hd
    exact ⟨d, hv ▸ hd, hid, hemail, rfl⟩
  · exact ⟨d', hd, rfl, rfl, rfl⟩

theorem Inv.finish (h : s.Inv) {d : EmailDelivery} (hd : (s.workers w).current = some d)
    {f : EmailOutbox → EmailOutbox} (hf : ∀ row, GoesOn row (f row)) (succeeds : Bool)
    (batch : List (Uuid × EmailOutbox)) :
    ((s.update succeeds d.id f).setTask w ⟨batch, none⟩).Inv := by
  cases succeeds with
  | false => exact h.setTask fun d' hd' => (by cases hd')
  | true =>
    have hlookup : ∀ id, (Assoc.modify d.id f s.outbox).lookup id =
        if id = d.id then (s.outbox.lookup d.id).map f else s.outbox.lookup id :=
          fun id => Assoc.lookup_modify f
    refine h.mono (fun id row hrow => ?_) (fun v e he => ?_) rfl
    · show ∃ row', (Assoc.modify d.id f s.outbox).lookup id = some row' ∧ _
      rw [hlookup]
      split
      · next hid =>
        subst hid
        rw [hrow]
        exact ⟨f row, rfl, hf row⟩
      · exact ⟨row, hrow, goesOn_self row⟩
    · rw [workers_setTask] at he
      split at he
      · cases he
      · next hv =>
        refine ⟨e, he, rfl, rfl, (hlookup e.id).trans (if_neg fun hid => hv ?_)⟩
        exact h.exclusive v w e d he hd hid

theorem Inv.mark (h : s.Inv) {row : EmailOutbox} (hrow : s.outbox.lookup id = some row) (hqueued : row.status = .queued)
    (hattempt : row.attemptCount = email.attemptCount) (batch : List (Uuid × EmailOutbox)) :
    ((s.update true id fun row => { row with status := .sending }).setTask w ⟨batch, some ⟨id, email, .marked⟩⟩).Inv := by
  have hlookup : ∀ k, (Assoc.modify id (fun row => { row with status := .sending }) s.outbox).lookup k =
      if k = id then some { row with status := .sending } else s.outbox.lookup k := by
    intro k
    rw [Assoc.lookup_modify, hrow]
    rfl
  -- a marked row is not queued
  have hfree : ∀ v d, (s.workers v).current = some d → d.id ≠ id := by
    rintro v d hd rfl
    obtain ⟨row', hrow', hsending, -⟩ := h.sending v d hd
    rw [hrow] at hrow'
    cases hrow'
    rw [hqueued] at hsending
    cases hsending
  have hcurrent : ∀ v d, ((s.setTask w ⟨batch, some ⟨id, email, .marked⟩⟩).workers v).current = some d →
      (v = w ∧ d = ⟨id, email, .marked⟩) ∨ (s.workers v).current = some d := by
    intro v d hd
    rw [workers_setTask] at hd
    split at hd
    · next hv => exact .inl ⟨hv, (Option.some.inj hd).symm⟩
    · exact .inr hd
  refine ⟨fun v u d e hd he heq => ?_, fun v d hd => ?_, fun x hx => ?_, fun x hx v d hd hid hx' => ?_, h.one⟩
  · rcases hcurrent v d hd with ⟨rfl, rfl⟩ | hd'
    · rcases hcurrent u e he with ⟨rfl, rfl⟩ | he'
      · rfl
      · exact absurd heq.symm (hfree u e he')
    · rcases hcurrent u e he with ⟨rfl, rfl⟩ | he'
      · exact absurd heq (hfree v d hd')
      · exact h.exclusive v u d e hd' he' heq
  · rcases hcurrent v d hd with ⟨rfl, rfl⟩ | hd
    · exact ⟨_, (hlookup id).trans (if_pos rfl), rfl, hattempt⟩
    · obtain ⟨row', hrow', hsending⟩ := h.sending v d hd
      exact ⟨row', (hlookup d.id).trans ((if_neg (hfree v d hd)).trans hrow'), hsending⟩
  · obtain ⟨row', hrow', hover⟩ := h.sent x hx
    by_cases hid : x.call.id = id
    · rw [hid, hrow] at hrow'
      cases hrow'
      refine ⟨_, (hlookup x.call.id).trans (if_pos hid), .inl ?_⟩
      exact hover.resolve_right fun hover => hover.2 hqueued
    · exact ⟨row', (hlookup x.call.id).trans ((if_neg hid).trans hrow'), hover⟩
  · rcases hcurrent v d hd with ⟨rfl, rfl⟩ | hd
    · obtain ⟨row', hrow', hover⟩ := h.sent x hx
      have hid : id = x.call.id := hid
      rw [← hid, hrow] at hrow'
      cases hrow'
      have hlt := hover.resolve_right fun hover => hover.2 hqueued
      have hsame : email.attemptCount = x.attempt := hx'
      omega
    · exact h.sender x hx v d hd hid hx'

theorem Inv.send (h : s.Inv) {d : EmailDelivery} (hd : (s.workers w).current = some d) {call : ProviderCall}
    (hcall : call.id = d.id) :
    ({ s with sends := ⟨w, d.email.attemptCount, call⟩ :: s.sends } : EmailWorkers).Inv := by
  refine ⟨h.exclusive, h.sending, fun x hx => ?_, fun x hx v e he hid hattempt => ?_,
    fun a ha b hb hid hattempt => ?_⟩
  · rcases List.mem_cons.1 hx with rfl | hx
    · obtain ⟨row, hrow, hsending, hattempt⟩ := h.sending w d hd
      refine ⟨row, hcall ▸ hrow, .inr ⟨hattempt.symm, ?_⟩⟩
      rw [hsending]
      nofun
    · exact h.sent x hx
  · rcases List.mem_cons.1 hx with rfl | hx
    · exact h.exclusive v w e d he hd (hid.trans hcall)
    · exact h.sender x hx v e he hid hattempt
  · rcases List.mem_cons.1 ha with rfl | ha <;> rcases List.mem_cons.1 hb with rfl | hb
    · rfl
    · exact h.sender b hb w d hd (hcall.symm.trans hid) hattempt
    · exact (h.sender a ha w d hd (hcall.symm.trans hid.symm) hattempt.symm).symm
    · exact h.one a ha b hb hid hattempt

theorem goesOn_markSent (now : Int) (row : EmailOutbox) : GoesOn row (row.markSent now) :=
  .inr ⟨rfl, fun _ => nofun⟩

theorem goesOn_markFailed (category message : String) (row : EmailOutbox) :
    GoesOn row (row.markFailed category message) :=
  .inr ⟨rfl, fun _ => nofun⟩

theorem goesOn_scheduleRetry (category message : String) (next : Int) (row : EmailOutbox) :
    GoesOn row (row.scheduleRetry category message next) := .inl (Int.lt_succ row.attemptCount)

theorem Inv.handleDeliveryError (h : s.Inv) {stage : EmailStage} (hd : (s.workers w).current = some ⟨id, email, stage⟩)
    (batch : List (Uuid × EmailOutbox)) (error : String) (nextAttempt : Option Int) (succeeds : Bool) :
    (s.handleDeliveryError config w batch id email error nextAttempt succeeds).Inv := by
  unfold EmailWorkers.handleDeliveryError
  dsimp only
  split
  · cases nextAttempt with
    | some nextAttempt => exact h.finish hd (goesOn_scheduleRetry _ _ _) succeeds batch
    | none => exact h.setTask fun d' hd' => (by cases hd')
  · exact h.finish hd (goesOn_markFailed _ _) succeeds batch

theorem Inv.enqueue (h : s.Inv) (hid : id ∉ s.outbox) :
    ({ s with outbox := s.outbox.insert id (EmailRun.enqueued email) } : EmailWorkers).Inv := by
  have hkeep : ∀ k row, s.outbox.lookup k = some row →
      (s.outbox.insert id (EmailRun.enqueued email)).lookup k = some row := by
    intro k row hrow
    rw [Assoc.lookup_insert_eq, if_neg, hrow]
    rintro rfl
    exact hid (AList.lookup_isSome.1 (by rw [hrow]; rfl))
  refine h.mono (fun k row hrow => ⟨row, hkeep k row hrow, goesOn_self row⟩) (fun w d hd => ?_) rfl
  obtain ⟨row, hrow, -⟩ := h.sending w d hd
  exact ⟨d, hd, rfl, rfl, (hkeep d.id row hrow).trans hrow.symm⟩

theorem Inv.step (h : s.Inv) (hclaims : s.Claims op) (hs : s.step tie config op = some s') : s'.Inv := by
  cases op with
  | enqueue id email =>
    rw [EmailWorkers.step, Option.some.injEq] at hs
    subst hs
    split
    · exact h
    · next hid => exact h.enqueue hid
  | getPendingEmails w now locked =>
    dsimp only [EmailWorkers.step] at hs
    split at hs
    · cases hs
      exact h.setTask fun d' hd' => (by cases hd')
    · cases hs
  | updateStatus w succeeds =>
    dsimp only [EmailWorkers.step] at hs
    split at hs
    · next id email batch htask =>
      cases hs
      cases succeeds with
      | false => exact h.setTask fun d' hd' => (by cases hd')
      | true =>
        obtain ⟨row, hrow, hqueued, hattempt⟩ := hclaims rfl (id, email) (by rw [htask]; rfl)
        exact h.mark hrow hqueued hattempt batch
    · cases hs
  | getOrCreateProvider w provider =>
    dsimp only [EmailWorkers.step] at hs
    split at hs
    · next batch id email htask =>
      cases hs
      refine h.setTask fun d' hd' => ?_
      cases hd'
      exact ⟨⟨id, email, .marked⟩, by rw [htask], rfl, rfl⟩
    · cases hs
  | sendEmail w answer =>
    dsimp only [EmailWorkers.step] at hs
    split at hs
    · next batch id email settings htask =>
      cases hs
      have hcurrent : (s.workers w).current = some ⟨id, email, .chosen settings⟩ := by rw [htask]
      refine (h.send hcurrent rfl).setTask fun d' hd' => ?_
      cases hd'
      exact ⟨_, hcurrent, rfl, rfl⟩
    · cases hs
  | record w now nextAttempt succeeds =>
    dsimp only [EmailWorkers.step] at hs
    split at hs
    · next batch id email htask =>
      cases hs
      have hcurrent : (s.workers w).current = some ⟨id, email, .accepted⟩ := by rw [htask]
      exact h.finish hcurrent (goesOn_markSent now) succeeds batch
    · next batch id email error htask =>
      cases hs
      exact h.handleDeliveryError (by rw [htask]) batch error nextAttempt succeeds
    · cases hs

/-! ### Every run -/

theorem inv_start (outbox : Assoc Uuid EmailOutbox) : (start outbox).Inv where
  exclusive w v d e hd := by cases hd
  sending w d hd := by cases hd
  sent x hx := by cases hx
  sender x hx := by cases hx
  one a ha := by cases ha

/-- In every run in which every row that is marked is still queued for the attempt that was polled, no two workers send
an email for the same attempt. -/
theorem oneSender_of_claims (tie : Uuid ↪ ℕ) (config : EmailWorkerConfig) (outbox : Assoc Uuid EmailOutbox)
    (ops : List EmailWorkersOp) (hclaims : Run.AllSteps (step tie config) Claims (start outbox) ops) :
    Run.AllStates (step tie config) OneSender (start outbox) ops :=
  (Run.allStates_of_allSteps (fun _ _ _ h hclaims hs => h.step hclaims hs) (inv_start outbox) hclaims).mono
    fun _ h => h.one

def queuedEmail : Assoc Uuid EmailOutbox :=
  AList.insert 7 ⟨"ann@a.b", "Hello", none, none, .queued, .normal, none, none, 0, 3, none, none, none,
    none, 0⟩ ∅

def deliver (worker : ℕ) : List EmailWorkersOp :=
  [.updateStatus worker true, .getOrCreateProvider worker (.ok ⟨"chat@a.b", "Chat"⟩),
    .sendEmail worker (.ok ())]

/-- Two workers poll before either of them marks the row, and both send the email. -/
theorem sent_twice : ∃ s, Run.exec (step ⟨BitVec.toNat, BitVec.toNat_injective⟩ ⟨100, 3⟩) (start queuedEmail)
    ([.getPendingEmails 1 0 [], .getPendingEmails 2 0 []] ++ deliver 1 ++ deliver 2) = some s ∧
      (s.sends.map fun x => (x.worker, x.call.id, x.attempt)) = [(2, 7, 0), (1, 7, 0)] ∧ ¬ s.OneSender := by
  refine ⟨_, rfl, rfl, fun h => ?_⟩
  have hsame := h _ List.mem_cons_self _ (List.mem_cons_of_mem _ List.mem_cons_self) rfl rfl
  cases hsame

/-- The second worker polls when the row is marked. -/
theorem sent_once : Run.AllStates (step ⟨BitVec.toNat, BitVec.toNat_injective⟩ ⟨100, 3⟩) OneSender (start queuedEmail)
    (.getPendingEmails 1 0 [] :: deliver 1 ++ [.getPendingEmails 2 0 []]) := by
  refine oneSender_of_claims _ _ queuedEmail _ (Run.allSteps_cons.2 ⟨trivial, fun s hs => ?_⟩)
  cases hs
  refine Run.allSteps_cons.2 ⟨fun _ e he => ?_, fun s hs => ?_⟩
  · cases he
    exact ⟨_, rfl, rfl, rfl⟩
  · cases hs
    refine Run.allSteps_cons.2 ⟨trivial, fun s hs => ?_⟩
    cases hs
    refine Run.allSteps_cons.2 ⟨trivial, fun s hs => ?_⟩
    cases hs
    exact Run.allSteps_cons.2 ⟨trivial, fun _ _ => Run.allSteps_nil⟩

end EmailWorkers

end Rustchat
