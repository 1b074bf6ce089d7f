import Rustchat.UploadSessions

/-!
# Interleaved uploads to one session

As long as every append finds the session as its request read it, and not complete, and nothing fails after the append
that completes it, the data is made of the chunks that were answered with success, and a session that is completed
makes one file with this data (`Uploads.sound_of_orderly`). An append does not look at the offset that is stored, so
that requests that overlap may break all of this.
-/

namespace Rustchat.Uploads

open UploadEnv UploadDb

/-- A request for the session `id`. -/
abbrev UploadTo (env : UploadEnv) (id : Uuid) : Type := {req : UploadRequest // env.parse req.uploadId = some id}

abbrev UploadPool (env : UploadEnv) (id : Uuid) : Type :=
  Pool UploadDb (UploadTo env id) UploadAct UploadAct.Res (Except AppError UploadResponse)

abbrev UploadInput (env : UploadEnv) (id : Uuid) : Type := Pool.Input (UploadTo env id) UploadOutcome

def step (env : UploadEnv) (id : Uuid) : UploadPool env id → UploadInput env id → Option (UploadPool env id) :=
  Pool.step (fun req => (env.uploadData req.1).run) fun _ => sem

abbrev Chunks : Type := List (ℕ × List UInt8)

def Chunks.content (sent : Chunks) : List UInt8 := sent.flatMap Prod.snd

/-- There is one file that was not there before, of the declared size and with the data that was sent. -/
def Created (db₀ db : UploadDb) (fileSize : Int) (sent : Chunks) : Prop :=
  ∃ fileId file, fileId ∉ db₀.files ∧ db.files = db₀.files.insert fileId file ∧ file.1.size = fileSize ∧
    db.objects.lookup file.1.key = some sent.content

/-- `sent` are the chunks of a session whose uploads started in `db₀`. -/
structure SoundFor (id : Uuid) (fileSize : Int) (db₀ : UploadDb) {env : UploadEnv} (pool : UploadPool env id)
    (sent : Chunks) : Prop where
  nodup : (sent.map Prod.fst).Nodup
  bodies : ∀ c ∈ sent, ∃ req prog, pool.tasks.lookup c.1 = some ⟨req, prog⟩ ∧ c.2 = req.1.body
  answered : ∀ t response, pool.result t = some (.ok response) → t ∈ sent.map Prod.fst
  refused : ∀ t e, pool.result t = some (.error e) → t ∉ sent.map Prod.fst
  offset : ∀ session, pool.shared.sessions.lookup id = some session →
    session.fileOffset = (session.fileData.getD []).length
  data : ∀ session, pool.shared.sessions.lookup id = some session → session.fileData.getD [] = sent.content
  created : pool.shared.files = db₀.files ∨ Created db₀ pool.shared fileSize sent
  completed : id ∉ pool.shared.sessions → Created db₀ pool.shared fileSize sent
  quiet : pool.Quiet → ∀ session, pool.shared.sessions.lookup id = some session →
    sent = [] ∨ session.fileOffset < fileSize

def Sound (id : Uuid) (fileSize : Int) (db₀ : UploadDb) {env : UploadEnv} (pool : UploadPool env id) : Prop :=
  ∃ sent, SoundFor id fileSize db₀ pool sent

/-- The keys of files, not those of their thumbnails and previews. -/
def isFileKey (key : String) : Bool := "files/".toList.isPrefixOf key.toList

/-- An append finds the session at the offset that its request read, and not complete; what comes after the append that
completes it does not fail. -/
def Orderly (o : UploadOutcome) (db : UploadDb) : UploadAct → Prop
  | .readSession _ => True
  | .append id body newOffset => o.error = none → ∃ session ∈ db.sessions.lookup id,
      newOffset = session.fileOffset + body.length ∧
        (session.fileData = none ∨ session.fileOffset < session.fileSize)
  | .readData _ => o.error = none
  | .upload key _ _ => isFileKey key = true → o.error = none
  | .insertFile id file => o.error = none ∧ db.Admits id file
  | .deleteSession _ => o.error = none

def OrderlyStep {env : UploadEnv} {id : Uuid} (pool : UploadPool env id) : UploadInput env id → Prop
  | .spawn _ _ => True
  | .step t o => ∀ act ∈ pool.upcoming t, Orderly o pool.shared act

instance (o : UploadOutcome) (db : UploadDb) : DecidablePred (Orderly o db)
  | .readSession _ => inferInstanceAs (Decidable True)
  | .append id body newOffset => inferInstanceAs (Decidable (o.error = none → ∃ session ∈ db.sessions.lookup id,
      newOffset = session.fileOffset + body.length ∧
        (session.fileData = none ∨ session.fileOffset < session.fileSize)))
  | .readData _ => inferInstanceAs (Decidable (o.error = none))
  | .upload key _ _ => inferInstanceAs (Decidable (isFileKey key = true → o.error = none))
  | .insertFile id file => inferInstanceAs (Decidable (o.error = none ∧ db.Admits id file))
  | .deleteSession _ => inferInstanceAs (Decidable (o.error = none))

instance {env : UploadEnv} {id : Uuid} (pool : UploadPool env id) : DecidablePred (OrderlyStep pool) := fun input =>
  match input with
  | .spawn _ _ => inferInstanceAs (Decidable True)
  | .step t o => inferInstanceAs (Decidable (∀ act ∈ pool.upcoming t, Orderly o pool.shared act))

/-- What a request has done: it has read the session, appended its chunk without or with completing the upload, read the
data, stored it, inserted the file, deleted the session, or failed after its append. -/
inductive Progress where
  | idle
  | found (session : UploadSessionRow)
  | settled
  | appended (session : UploadSessionRow)
  | loaded (session : UploadSessionRow) (data : List UInt8)
  | stored (session : UploadSessionRow) (key : String)
  | inserted
  | removed
  | broken

namespace Progress

def sent : Progress → Bool
  | idle | found _ | broken => false
  | settled | appended _ | loaded _ _ | stored _ _ | inserted | removed => true

def closing : Progress → Bool
  | idle | found _ | settled | broken => false
  | appended _ | loaded _ _ | stored _ _ | inserted | removed => true

def session : Progress → Option UploadSessionRow
  | found session | appended session | loaded session _ | stored session _ => some session
  | idle | settled | inserted | removed | broken => none

def next : Progress → (act : UploadAct) → act.Res → Progress
  | idle, .readSession _, .ok (some (session : UploadSessionRow)) => found session
  | idle, _, _ => idle
  | found session, .append _ _ newOffset, .ok _ => if newOffset ≥ session.fileSize then appended session else settled
  | found session, _, _ => found session
  | appended session, .readData _, .ok (data : Option (List UInt8)) => loaded session (data.getD [])
  | loaded session _, .upload key _ _, .ok _ => stored session key
  | stored session key, .upload _ _ _, _ => stored session key
  | stored _ _, .insertFile _ _, .ok _ => inserted
  | inserted, .deleteSession _, .ok _ => removed
  | _, _, _ => broken

end Progress

section Requests

variable {env : UploadEnv} {id : Uuid}

def MayDo (req : UploadTo env id) : Progress → UploadAct → Prop
  | .idle, act => act = .readSession id
  | .found session, act => act = .append id req.1.body (session.fileOffset + req.1.body.length)
  | .appended _, act => act = .readData id
  | .loaded _ data, act => ∃ key contentType, isFileKey key = true ∧ act = .upload key data contentType
  | .stored session key, act =>
    (∃ other data contentType, isFileKey other = false ∧ act = .upload other data contentType) ∨
      ∃ fileId file, file.key = key ∧ file.size = session.fileSize ∧ act = .insertFile fileId file
  | .inserted, act => act = .deleteSession id
  | .settled, _ | .removed, _ | .broken, _ => False

def Ends : Except AppError UploadResponse → Progress → Prop
  | .ok _, g => g = .settled ∨ g = .removed
  | .error _, g => g.sent = false

abbrev Goes (req : UploadTo env id) (p : UploadProg UploadResponse) (g : Progress) : Prop :=
  p.run.Ghost (MayDo req) Progress.next Ends g

variable {req : UploadTo env id} {g : Progress} {act : UploadAct}

theorem goes_ask {f : act.Row → UploadProg UploadResponse} (h : MayDo req g act)
    (hok : ∀ a, Goes req (f a) (g.next act (.ok a))) (herror : ∀ e, (g.next act (.error e)).sent = false) :
    Goes req (ask act >>= f) g := by
  refine ⟨h, fun r => ?_⟩
  cases r with
  | ok a => exact hok a
  | error e => exact herror e

theorem goes_tryUpload {session : UploadSessionRow} {key other : String} {data : List UInt8}
    {f : Bool → UploadProg UploadResponse} (hother : isFileKey other = false)
    (hf : ∀ stored, Goes req (f stored) (.stored session key)) :
    Goes req (tryUpload other data >>= f) (.stored session key) :=
  ⟨.inl ⟨other, data, _, hother, rfl⟩, fun r => hf r.toBool⟩

theorem isFileKey_fileKey (userId fileId : Uuid) (extension : String) :
    isFileKey (fileKey userId fileId extension) = true := by
  rw [isFileKey, List.isPrefixOf_iff_prefix]
  unfold fileKey
  split
  · rw [String.append_assoc, String.append_assoc, String.toList_append]
    exact List.prefix_append _ _
  · rw [String.append_assoc, String.append_assoc, String.append_assoc, String.append_assoc, String.toList_append]
    exact List.prefix_append _ _

theorem isFileKey_of_other {start rest : String} (h : start.toList.head? ≠ some 'f') (hne : start.toList ≠ []) :
    isFileKey (start ++ rest) = false := by
  rw [isFileKey, String.toList_append]
  cases hstart : start.toList with
  | nil => exact absurd hstart hne
  | cons c cs =>
    have hc : 'f' ≠ c := by
      rintro rfl
      exact h (by rw [hstart]; rfl)
    show ('f' == c && _) = false
    rw [beq_eq_false_iff_ne.2 hc, Bool.false_and]

theorem isFileKey_thumbnailKey (userId fileId : Uuid) : isFileKey (thumbnailKey userId fileId) = false := by
  rw [thumbnailKey, String.append_assoc, String.append_assoc, String.append_assoc]
  exact isFileKey_of_other (by decide) (by decide)

theorem isFileKey_previewKey (userId fileId : Uuid) : isFileKey (previewKey userId fileId) = false := by
  rw [previewKey, String.append_assoc, String.append_assoc, String.append_assoc]
  exact isFileKey_of_other (by decide) (by decide)

theorem goes_insertFile {session : UploadSessionRow} {key : String} {fileId : Uuid} {file : UploadedFile}
    {response : UploadResponse} (hkey : file.key = key) (hsize : file.size = session.fileSize) :
    Goes req (ask (.insertFile fileId file) >>= fun _ => ask (.deleteSession id) >>= fun _ => pure response)
      (.stored session key) := by
  refine goes_ask (.inr ⟨fileId, file, hkey, hsize, rfl⟩) (fun _ => ?_) fun _ => rfl
  exact goes_ask rfl (fun _ => .inr rfl) fun _ => rfl

theorem goes_finishUpload {session : UploadSessionRow} {data : List UInt8} {key : String} :
    Goes req (env.finishUpload req.1 id session data key) (.stored session key) := by
  unfold finishUpload
  obtain ⟨filename, mimeType, extension⟩ := env.normalizeUploadSessionFileMetadata session.filename data
  dsimp only
  generalize (if isImage mimeType = true then env.processImage data else ⟨none, none, none, none⟩) = image
  obtain ⟨width, height, thumbnailData, previewData⟩ := image
  cases thumbnailData with
  | none =>
    cases previewData with
    | none => exact goes_insertFile rfl rfl
    | some previewData => exact goes_tryUpload (isFileKey_previewKey _ _) fun _ => goes_insertFile rfl rfl
  | some thumbData =>
    refine goes_tryUpload (isFileKey_thumbnailKey _ _) fun stored => ?_
    cases previewData with
    | none => exact goes_insertFile rfl rfl
    | some previewData => exact goes_tryUpload (isFileKey_previewKey _ _) fun _ => goes_insertFile rfl rfl

theorem goes_uploadData (req : UploadTo env id) : Goes req (env.uploadData req.1) .idle := by
  unfold uploadData
  rw [req.2]
  refine goes_ask rfl (fun found => ?_) fun _ => rfl
  cases found with
  | none => exact rfl
  | some session =>
    show Goes req (if session.userId ≠ req.1.userId then _ else _) (.found session)
    split
    · exact rfl
    · refine goes_ask rfl (fun _ => ?_) fun _ => rfl
      show Goes req _ (if session.fileOffset + req.1.body.length ≥ session.fileSize then .appended session else .settled)
      split
      · unfold completeUpload
        refine goes_ask rfl (fun fileData => ?_) fun _ => rfl
        exact goes_ask ⟨_, _, isFileKey_fileKey _ _ _, rfl⟩ (fun _ => goes_finishUpload) fun _ => rfl
      · exact .inl rfl

end Requests

section Invariant

variable {env : UploadEnv} {id : Uuid} {fileSize : Int} {db₀ db db' : UploadDb} {sent : Chunks} {ghost : ℕ → Progress}
  {pool : UploadPool env id} {t : ℕ} {g : Progress}

def Holds (id : Uuid) (fileSize : Int) (db : UploadDb) (sent : Chunks) : Prop :=
  ∃ session, db.sessions.lookup id = some session ∧ session.fileSize = fileSize ∧
    session.fileOffset = sent.content.length ∧ session.fileData = if sent = [] then none else some sent.content

def Stage (id : Uuid) (fileSize : Int) (db₀ db : UploadDb) (sent : Chunks) : Progress → Prop
  | .appended _ => Holds id fileSize db sent ∧ db.files = db₀.files
  | .loaded _ data => Holds id fileSize db sent ∧ db.files = db₀.files ∧ data = sent.content
  | .stored _ key => Holds id fileSize db sent ∧ db.files = db₀.files ∧ isFileKey key = true ∧
      db.objects.lookup key = some sent.content
  | .inserted => Holds id fileSize db sent ∧ Created db₀ db fileSize sent
  | .removed => id ∉ db.sessions ∧ Created db₀ db fileSize sent
  | .idle | .found _ | .settled | .broken => False

/-- Either the upload is not complete, or one request has completed it. -/
inductive Course (id : Uuid) (fileSize : Int) (db₀ db : UploadDb) (ghost : ℕ → Progress) (sent : Chunks) : Prop
  | filling (hopen : ∀ t, (ghost t).closing = false) (hholds : Holds id fileSize db sent)
      (hfiles : db.files = db₀.files) (hless : sent = [] ∨ (sent.content.length : Int) < fileSize)
  | closing (t : ℕ) (hone : ∀ t', (ghost t').closing = true → t' = t) (hne : sent ≠ [])
      (hstage : Stage id fileSize db₀ db sent (ghost t)) (hfull : fileSize ≤ sent.content.length)

structure InvFor (id : Uuid) (fileSize : Int) (db₀ : UploadDb) (pool : UploadPool env id) (ghost : ℕ → Progress)
    (sent : Chunks) : Prop where
  nodup : (sent.map Prod.fst).Nodup
  bodies : ∀ c ∈ sent, ∃ req prog, pool.tasks.lookup c.1 = some ⟨req, prog⟩ ∧ c.2 = req.1.body
  counted : ∀ t, t ∈ sent.map Prod.fst ↔ (ghost t).sent = true
  size : ∀ t session, (ghost t).session = some session → session.fileSize = fileSize
  course : Course id fileSize db₀ pool.shared ghost sent

theorem Stage.closing (h : Stage id fileSize db₀ db sent g) : g.closing = true := by
  cases g with
  | idle => exact h.elim
  | found session => exact h.elim
  | settled => exact h.elim
  | broken => exact h.elim
  | _ => rfl

theorem Progress.sent_of_closing (h : g.closing = true) : g.sent = true := by
  cases g with
  | idle => cases h
  | found session => cases h
  | broken => cases h
  | _ => rfl

theorem Course.holds (h : Course id fileSize db₀ db ghost sent) : Holds id fileSize db sent ∨
    id ∉ db.sessions ∧ Created db₀ db fileSize sent ∧ ∃ t, ghost t = .removed := by
  cases h with
  | filling hopen hholds hfiles hless => exact .inl hholds
  | closing t hone hne hstage hfull =>
    cases hg : ghost t with
    | appended session => rw [hg] at hstage; exact .inl hstage.1
    | loaded session data => rw [hg] at hstage; exact .inl hstage.1
    | stored session key => rw [hg] at hstage; exact .inl hstage.1
    | inserted => rw [hg] at hstage; exact .inl hstage.1
    | removed => rw [hg] at hstage; exact .inr ⟨hstage.1, hstage.2, t, hg⟩
    | _ => rw [hg] at hstage; exact hstage.elim

theorem Course.holds_of_lookup (h : Course id fileSize db₀ db ghost sent) {session : UploadSession}
    (hl : db.sessions.lookup id = some session) : session.fileSize = fileSize ∧
      session.fileOffset = sent.content.length ∧ session.fileData = if sent = [] then none else some sent.content := by
  rcases h.holds with ⟨session', hl', hfacts⟩ | ⟨hnone, -⟩
  · obtain rfl := Option.some.inj (hl.symm.trans hl')
    exact hfacts
  · exact absurd (AList.lookup_isSome.1 (by rw [hl]; rfl)) hnone

theorem Course.update (h : Course id fileSize db₀ db ghost sent) (ht : (ghost t).closing = false)
    (hg : g.closing = false) : Course id fileSize db₀ db (Function.update ghost t g) sent := by
  have hclosing (t' : ℕ) : (Function.update ghost t g t').closing = (ghost t').closing := by
    by_cases heq : t' = t
    · rw [heq, Function.update_self, hg, ht]
    · rw [Function.update_of_ne heq]
  cases h with
  | filling hopen hholds hfiles hless =>
    exact .filling (fun t' => (hclosing t').trans (hopen t')) hholds hfiles hless
  | closing t₀ hone hne hstage hfull =>
    have hne₀ : t₀ ≠ t := by
      rintro rfl
      rw [hstage.closing] at ht
      cases ht
    refine .closing t₀ (fun t' ht' => hone t' (hclosing t' ▸ ht')) hne ?_ hfull
    rw [Function.update_of_ne hne₀]
    exact hstage

theorem Course.advance (h : Course id fileSize db₀ db ghost sent) (ht : (ghost t).closing = true)
    (hg : Stage id fileSize db₀ db sent (ghost t) → Stage id fileSize db₀ db' sent g) :
    Course id fileSize db₀ db' (Function.update ghost t g) sent := by
  cases h with
  | filling hopen hholds hfiles hless =>
    rw [hopen t] at ht
    cases ht
  | closing t₀ hone hne hstage hfull =>
    obtain rfl := hone t ht
    refine .closing t (fun t' ht' => ?_) hne ?_ hfull
    · by_cases heq : t' = t
      · exact heq
      · rw [Function.update_of_ne heq] at ht'
        exact hone t' ht'
    · rw [Function.update_self]
      exact hg hstage

variable {req : UploadTo env id} {prog prog' : Prog UploadAct UploadAct.Res (Except AppError UploadResponse)}

theorem InvFor.update (h : InvFor id fileSize db₀ pool ghost sent)
    (hreq : ∀ task, pool.tasks.lookup t = some task → task.label = req) (hsent : g.sent = (ghost t).sent)
    (hsize : ∀ session, g.session = some session → session.fileSize = fileSize)
    (hcourse : Course id fileSize db₀ db' (Function.update ghost t g) sent) :
    InvFor id fileSize db₀ (⟨db', pool.tasks.insert t ⟨req, prog⟩⟩ : UploadPool env id) (Function.update ghost t g)
      sent where
  nodup := h.nodup
  bodies c hc := by
    obtain ⟨req', prog', hl, hbody⟩ := h.bodies c hc
    by_cases heq : c.1 = t
    · have hlabel : req' = req := hreq _ (heq ▸ hl)
      exact ⟨req, prog, Assoc.lookup_insert_eq.trans (if_pos heq), hlabel ▸ hbody⟩
    · exact ⟨req', prog', Assoc.lookup_insert_eq.trans ((if_neg heq).trans hl), hbody⟩
  counted t' := by
    rw [h.counted t']
    by_cases heq : t' = t
    · rw [heq, Function.update_self, hsent]
    · rw [Function.update_of_ne heq]
  size t' session hsession := by
    by_cases heq : t' = t
    · rw [heq, Function.update_self] at hsession
      exact hsize session hsession
    · rw [Function.update_of_ne heq] at hsession
      exact h.size t' session hsession
  course := hcourse

theorem content_concat {body : List UInt8} : Chunks.content (sent ++ [(t, body)]) = sent.content ++ body := by
  rw [Chunks.content, List.flatMap_append, List.flatMap_singleton]
  rfl

theorem Holds.append {body : List UInt8} {newOffset : Int} (h : Holds id fileSize db sent) {now : Int}
    (hoffset : newOffset = sent.content.length + body.length) :
    Holds id fileSize (db.perform now (.append id body newOffset)).2 (sent ++ [(t, body)]) := by
  obtain ⟨session, hl, hsize, hstored, hdata⟩ := h
  have hcontent : session.fileData.getD [] = sent.content := by
    rw [hdata]
    split
    · next hnil => rw [hnil]; rfl
    · rfl
  refine ⟨_, (Assoc.lookup_modify _).trans ((if_pos rfl).trans (congrArg _ hl)), hsize, ?_, ?_⟩
  · rw [content_concat, List.length_append, Nat.cast_add]
    exact hoffset
  · rw [if_neg (List.append_ne_nil_of_right_ne_nil _ (List.cons_ne_nil _ _)), content_concat, ← hcontent]

theorem Course.filling_of_orderly (h : Course id fileSize db₀ db ghost sent) {stored : UploadSession}
    (hl : db.sessions.lookup id = some stored)
    (hopen : stored.fileData = none ∨ stored.fileOffset < stored.fileSize) :
    (∀ t, (ghost t).closing = false) ∧ Holds id fileSize db sent ∧ db.files = db₀.files := by
  obtain ⟨hsize, hoffset, hdata⟩ := h.holds_of_lookup hl
  cases h with
  | filling hfilling hholds hfiles hless => exact ⟨hfilling, hholds, hfiles⟩
  | closing t hone hne hstage hfull =>
    rw [if_neg hne] at hdata
    rcases hopen with hnone | hless
    · rw [hnone] at hdata
      cases hdata
    · omega

theorem InvFor.append (h : InvFor id fileSize db₀ pool ghost sent) {session : UploadSessionRow} {newOffset : Int}
    (hg : ghost t = .found session) (hl : pool.tasks.lookup t = some ⟨req, prog⟩) {stored : UploadSession}
    (hstored : pool.shared.sessions.lookup id = some stored)
    (hoffset : newOffset = stored.fileOffset + req.1.body.length)
    (hopen : stored.fileData = none ∨ stored.fileOffset < stored.fileSize) {now : Int} :
    InvFor id fileSize db₀ (⟨(pool.shared.perform now (.append id req.1.body newOffset)).2,
        pool.tasks.insert t ⟨req, prog'⟩⟩ : UploadPool env id)
      (Function.update ghost t (if newOffset ≥ session.fileSize then .appended session else .settled))
      (sent ++ [(t, req.1.body)]) := by
  obtain ⟨hfilling, hholds, hfiles⟩ := h.course.filling_of_orderly hstored hopen
  have hnew : t ∉ sent.map Prod.fst := fun ht => by
    have hsent := (h.counted t).1 ht
    rw [hg] at hsent
    cases hsent
  have hsize : session.fileSize = fileSize := h.size t session (by rw [hg]; rfl)
  have hlength : newOffset = sent.content.length + req.1.body.length := by
    rw [hoffset, (h.course.holds_of_lookup hstored).2.1]
  have hlength' : ((sent ++ [(t, req.1.body)] : Chunks).content.length : Int) = newOffset := by
    rw [content_concat, List.length_append, Nat.cast_add, hlength]
  have hholds' := @Holds.append id fileSize pool.shared sent t req.1.body newOffset hholds now hlength
  have hfiles' : (pool.shared.perform now (.append id req.1.body newOffset)).2.files = db₀.files := hfiles
  refine ⟨?_, fun c hc => ?_, fun t' => ?_, fun t' session' hsession => ?_, ?_⟩
  · rw [List.map_append]
    exact List.nodup_append.2 ⟨h.nodup, List.nodup_singleton _, by
      rintro a ha b hb rfl
      obtain rfl : a = t := List.mem_singleton.1 hb
      exact hnew ha⟩
  · rcases List.mem_append.1 hc with hc | hc
    · obtain ⟨req', prog', hl', hbody⟩ := h.bodies c hc
      have hne : c.1 ≠ t := fun heq => hnew (heq ▸ List.mem_map_of_mem hc)
      exact ⟨req', prog', Assoc.lookup_insert_eq.trans ((if_neg hne).trans hl'), hbody⟩
    · rw [List.mem_singleton.1 hc]
      exact ⟨req, prog', Assoc.lookup_insert_self, rfl⟩
  · rw [List.map_append, List.mem_append, h.counted t']
    by_cases heq : t' = t
    · subst heq
      rw [Function.update_self]
      refine iff_of_true (.inr (List.mem_singleton_self _)) ?_
      split <;> rfl
    · rw [Function.update_of_ne heq]
      exact or_iff_left fun hmem => heq (List.mem_singleton.1 hmem)
  · by_cases heq : t' = t
    · rw [heq, Function.update_self] at hsession
      split at hsession
      · obtain rfl := Option.some.inj hsession
        exact hsize
      · cases hsession
    · rw [Function.update_of_ne heq] at hsession
      exact h.size t' session' hsession
  · by_cases hfull : newOffset ≥ session.fileSize
    · rw [if_pos hfull]
      refine .closing t (fun t' ht' => ?_) (List.append_ne_nil_of_right_ne_nil _ (List.cons_ne_nil _ _)) ?_ ?_
      · by_contra hne
        rw [Function.update_of_ne hne, hfilling t'] at ht'
        cases ht'
      · rw [Function.update_self]
        exact ⟨hholds', hfiles'⟩
      · rw [hlength', ← hsize]
        exact hfull
    · rw [if_neg hfull]
      refine .filling (fun t' => ?_) hholds' hfiles' (.inr ?_)
      · by_cases hne : t' = t
        · rw [hne, Function.update_self]
          rfl
        · rw [Function.update_of_ne hne]
          exact hfilling t'
      · rw [hlength', ← hsize]
        exact not_le.1 hfull

/-! ### Every step -/

theorem label_of_performs {act : UploadAct} {next : act.Res → Prog UploadAct UploadAct.Res (Except AppError UploadResponse)}
    (hp : pool.Performs t req act next) : ∀ task, pool.tasks.lookup t = some task → task.label = req := by
  intro task hl
  rw [Option.some.inj (hl.symm.trans hp)]

theorem invFor_spawn (h : InvFor id fileSize db₀ pool ghost sent) (hl : pool.tasks.lookup t = none) :
    InvFor id fileSize db₀ (⟨pool.shared, pool.tasks.insert t ⟨req, prog⟩⟩ : UploadPool env id)
      (Function.update ghost t .idle) sent := by
  have hsent : (ghost t).sent = false := by
    rw [Bool.eq_false_iff]
    intro ht
    obtain ⟨c, hc, rfl⟩ := List.mem_map.1 ((h.counted t).2 ht)
    obtain ⟨req', prog', hl', -⟩ := h.bodies c hc
    rw [hl] at hl'
    cases hl'
  refine h.update (fun task hl' => ?_) hsent.symm (fun session hsession => by cases hsession) (h.course.update ?_ rfl)
  · rw [hl] at hl'
    cases hl'
  · rw [Bool.eq_false_iff]
    intro hclosing
    rw [Progress.sent_of_closing hclosing] at hsent
    cases hsent

theorem sem_of_ok {o : UploadOutcome} {act : UploadAct} (h : o.error = none) :
    sem o act db = db.perform o.now act := by
  rw [sem, h]

theorem sem_of_error {o : UploadOutcome} {act : UploadAct} {text : String} (h : o.error = some text) :
    sem o act db = (.error (failure text act), db) := by
  rw [sem, h]

theorem Course.stage (h : Course id fileSize db₀ db ghost sent) (ht : (ghost t).closing = true) :
    Stage id fileSize db₀ db sent (ghost t) := by
  cases h with
  | filling hopen hholds hfiles hless =>
    rw [hopen t] at ht
    cases ht
  | closing t₀ hone hne hstage hfull =>
    obtain rfl := hone t ht
    exact hstage

section Perform

variable {act : UploadAct} {next : act.Res → Prog UploadAct UploadAct.Res (Except AppError UploadResponse)}
  {o : UploadOutcome}

theorem InvFor.same (h : InvFor id fileSize db₀ pool ghost sent)
    (hreq : ∀ task, pool.tasks.lookup t = some task → task.label = req)
    (hclosing : (ghost t).closing = false) (hg : g.closing = false) (hsent : g.sent = (ghost t).sent)
    (hsize : ∀ session, g.session = some session → session.fileSize = fileSize) :
    InvFor id fileSize db₀ (⟨pool.shared, pool.tasks.insert t ⟨req, prog⟩⟩ : UploadPool env id)
      (Function.update ghost t g) sent :=
  h.update hreq hsent hsize (h.course.update hclosing hg)

theorem InvFor.advance (h : InvFor id fileSize db₀ pool ghost sent)
    (hreq : ∀ task, pool.tasks.lookup t = some task → task.label = req) (hclosing : (ghost t).closing = true)
    (hsize : ∀ session, g.session = some session → session.fileSize = fileSize)
    (hg : Stage id fileSize db₀ db' sent g) :
    InvFor id fileSize db₀ (⟨db', pool.tasks.insert t ⟨req, prog⟩⟩ : UploadPool env id)
      (Function.update ghost t g) sent :=
  h.update hreq ((Progress.sent_of_closing hg.closing).trans (Progress.sent_of_closing hclosing).symm) hsize
    (h.course.advance hclosing fun _ => hg)

theorem exists_invFor_perform (h : InvFor id fileSize db₀ pool ghost sent) (hp : pool.Performs t req act next)
    (hmay : MayDo req (ghost t) act) (horderly : Orderly o pool.shared act) : ∃ sent', InvFor id fileSize db₀
      (⟨(sem o act pool.shared).2, pool.tasks.insert t ⟨req, next (sem o act pool.shared).1⟩⟩ : UploadPool env id)
      (Function.update ghost t ((ghost t).next act (sem o act pool.shared).1)) sent' := by
  have hreq := label_of_performs hp
  have hsize := h.size t
  have hstage : (ghost t).closing = true → Stage id fileSize db₀ pool.shared sent (ghost t) := h.course.stage
  cases hg : ghost t with
  | idle =>
    rw [hg] at hmay
    obtain rfl : act = .readSession id := hmay
    refine ⟨sent, ?_⟩
    cases ho : o.error with
    | some text =>
      rw [sem_of_error ho]
      exact h.same hreq (by rw [hg]; rfl) rfl (by rw [hg]; rfl) fun _ hs => by cases hs
    | none =>
      rw [sem_of_ok ho]
      generalize hfound : ((pool.shared.sessions.lookup id).filter fun session => o.now < session.expiresAt).map
        UploadSession.row = found
      have hres : pool.shared.perform o.now (.readSession id) = (.ok found, pool.shared) := by
        rw [← hfound]
        rfl
      rw [hres]
      cases found with
      | none => exact h.same hreq (by rw [hg]; rfl) rfl (by rw [hg]; rfl) fun _ hs => by cases hs
      | some row =>
        refine h.same hreq (by rw [hg]; rfl) rfl (by rw [hg]; rfl) fun session hs => ?_
        obtain rfl := Option.some.inj hs
        obtain ⟨stored, hstored, rfl⟩ := Option.map_eq_some_iff.1 hfound
        exact (h.course.holds_of_lookup (Option.filter_eq_some_iff.1 hstored).1).1
  | found session =>
    rw [hg] at hmay hsize
    obtain rfl : act = .append id req.1.body (session.fileOffset + req.1.body.length) := hmay
    cases ho : o.error with
    | some text =>
      rw [sem_of_error ho]
      exact ⟨sent, h.same hreq (by rw [hg]; rfl) rfl (by rw [hg]; rfl) hsize⟩
    | none =>
      rw [sem_of_ok ho]
      obtain ⟨stored, hstored, hoffset, hopen⟩ := horderly ho
      exact ⟨_, h.append hg hp hstored hoffset hopen⟩
  | appended session =>
    rw [hg] at hmay hstage hsize
    obtain rfl : act = .readData id := hmay
    obtain ⟨hholds, hfiles⟩ := hstage rfl
    have hrow := hholds
    obtain ⟨stored, hl, -, -, hdata⟩ := hrow
    have hres : pool.shared.perform o.now (.readData id) = (.ok stored.fileData, pool.shared) := by
      show (okOr ((pool.shared.sessions.lookup id).map UploadSession.fileData) _, _) = _
      rw [hl]
      rfl
    rw [sem_of_ok horderly, hres]
    refine ⟨sent, h.advance hreq (by rw [hg]; rfl) hsize ⟨hholds, hfiles, ?_⟩⟩
    rw [hdata]
    split
    · next hnil => rw [hnil]; rfl
    · rfl
  | loaded session data =>
    rw [hg] at hmay hstage hsize
    obtain ⟨key, contentType, hkey, rfl⟩ := hmay
    obtain ⟨hholds, hfiles, hdata⟩ := hstage rfl
    rw [sem_of_ok (horderly hkey)]
    refine ⟨sent, h.advance hreq (by rw [hg]; rfl) hsize ⟨hholds, hfiles, hkey, ?_⟩⟩
    exact hdata ▸ Assoc.lookup_insert_self
  | stored session key =>
    rw [hg] at hmay hstage hsize
    obtain ⟨hholds, hfiles, hkey, hobject⟩ := hstage rfl
    rcases hmay with ⟨other, data, contentType, hother, rfl⟩ | ⟨fileId, file, rfl, hfile, rfl⟩
    · cases ho : o.error with
      | some text =>
        rw [sem_of_error ho]
        exact ⟨sent, h.advance hreq (by rw [hg]; rfl) hsize ⟨hholds, hfiles, hkey, hobject⟩⟩
      | none =>
        rw [sem_of_ok ho]
        refine ⟨sent, h.advance hreq (by rw [hg]; rfl) hsize ⟨hholds, hfiles, hkey, ?_⟩⟩
        have hne : key ≠ other := by
          rintro rfl
          rw [hkey] at hother
          cases hother
        exact Assoc.lookup_insert_eq.trans ((if_neg hne).trans hobject)
    · obtain ⟨ho, hadmits⟩ := horderly
      have hres : pool.shared.perform o.now (.insertFile fileId file) =
          (.ok (), pool.shared.insertFile fileId file hadmits) := dif_pos hadmits
      rw [sem_of_ok ho, hres]
      refine ⟨sent, h.advance hreq (by rw [hg]; rfl) (fun _ hs => by cases hs) ⟨hholds, ?_⟩⟩
      refine ⟨fileId, ⟨file, hadmits.1⟩, hfiles ▸ hadmits.2.1, ?_, ?_, hobject⟩
      · rw [← hfiles]
        rfl
      · exact hfile.trans (hsize session rfl)
  | inserted =>
    rw [hg] at hmay hstage hsize
    obtain rfl : act = .deleteSession id := hmay
    obtain ⟨-, hcreated⟩ := hstage rfl
    rw [sem_of_ok horderly]
    refine ⟨sent, h.advance hreq (by rw [hg]; rfl) (fun _ hs => by cases hs) ⟨?_, hcreated⟩⟩
    exact fun hmem => (AList.mem_erase.1 hmem).1 rfl
  | settled =>
    rw [hg] at hmay
    exact hmay.elim
  | removed =>
    rw [hg] at hmay
    exact hmay.elim
  | broken =>
    rw [hg] at hmay
    exact hmay.elim

end Perform

/-! ### Runs -/

theorem InvFor.sound (h : InvFor id fileSize db₀ pool ghost sent)
    (hghost : pool.Shadowed MayDo Progress.next Ends ghost) : SoundFor id fileSize db₀ pool sent where
  nodup := h.nodup
  bodies := h.bodies
  answered t response hr := by
    refine (h.counted t).2 ?_
    rcases (hghost.result hr : ghost t = .settled ∨ ghost t = .removed) with hg | hg
    · rw [hg]
      rfl
    · rw [hg]
      rfl
  refused t e hr ht := by
    have hsent : (ghost t).sent = false := hghost.result hr
    rw [(h.counted t).1 ht] at hsent
    cases hsent
  offset session hl := by
    obtain ⟨-, hoffset, hdata⟩ := h.course.holds_of_lookup hl
    rw [hoffset, hdata]
    split
    · next hnil => rw [hnil]; rfl
    · rfl
  data session hl := by
    obtain ⟨-, -, hdata⟩ := h.course.holds_of_lookup hl
    rw [hdata]
    split
    · next hnil => rw [hnil]; rfl
    · rfl
  created := by
    cases h.course with
    | filling hopen hholds hfiles hless => exact .inl hfiles
    | closing t hone hne hstage hfull =>
      cases hg : ghost t with
      | appended session => rw [hg] at hstage; exact .inl hstage.2
      | loaded session data => rw [hg] at hstage; exact .inl hstage.2.1
      | stored session key => rw [hg] at hstage; exact .inl hstage.2.1
      | inserted => rw [hg] at hstage; exact .inr hstage.2
      | removed => rw [hg] at hstage; exact .inr hstage.2
      | _ => rw [hg] at hstage; exact hstage.elim
  completed hnone := by
    rcases h.course.holds with ⟨session, hl, -⟩ | ⟨-, hcreated, -⟩
    · exact absurd (AList.lookup_isSome.1 (by rw [hl]; rfl)) hnone
    · exact hcreated
  quiet hquiet session hl := by
    obtain ⟨-, hoffset, -⟩ := h.course.holds_of_lookup hl
    rw [hoffset]
    cases h.course with
    | filling hopen hholds hfiles hless => exact hless
    | closing t hone hne hstage hfull =>
      -- the request that completed the upload is done, and has removed the session
      obtain ⟨c, hc, rfl⟩ := List.mem_map.1 ((h.counted t).2 (Progress.sent_of_closing hstage.closing))
      obtain ⟨req, prog, hl', -⟩ := h.bodies c hc
      obtain ⟨r, rfl⟩ := hquiet c.1 _ hl'
      have hends : Ends r (ghost c.1) := hghost c.1 _ hl'
      have hclosing := hstage.closing
      cases r with
      | ok response =>
        rcases (hends : ghost c.1 = .settled ∨ ghost c.1 = .removed) with hg | hg
        · rw [hg] at hclosing
          cases hclosing
        · rw [hg] at hstage
          exact absurd (AList.lookup_isSome.1 (by rw [hl]; rfl)) hstage.1
      | error e =>
        have hsent : (ghost c.1).sent = false := hends
        rw [Progress.sent_of_closing hclosing] at hsent
        cases hsent

theorem invFor_start (env : UploadEnv) (db : UploadDb) {userId channelId : Uuid} {filename : String} {now : Int} :
    InvFor id fileSize (db.createUpload id userId channelId filename fileSize now)
      (Pool.start (db.createUpload id userId channelId filename fileSize now) : UploadPool env id) (fun _ => .idle)
      [] where
  nodup := List.nodup_nil
  bodies _ hc := absurd hc List.not_mem_nil
  counted _ := iff_of_false List.not_mem_nil Bool.false_ne_true
  size _ _ hs := by cases hs
  course := .filling (fun _ => rfl) ⟨_, Assoc.lookup_insert_self, rfl, rfl, rfl⟩ rfl (.inl rfl)

end Invariant

def plainUploads : UploadEnv where
  parseUuid := Uuid.ofHyphenated
  guessMime _ := "application/octet-stream"
  guessFormat _ := none
  sha256 _ := ""
  processImage _ := ⟨none, none, none, none⟩

def emptyUploads : UploadDb := ⟨∅, ∅, ∅, fun _ _ _ _ hf => by cases hf⟩

/-- A request of the user `1` for the session `7`. -/
def upload (body : List UInt8) : UploadTo plainUploads 7 :=
  ⟨⟨1, (7 : Uuid).hyphenated, body, ⟨9, 0⟩⟩, by
    show parseMmOrUuid Uuid.ofHyphenated _ = _
    rw [parseMmOrUuid, Uuid.ofHyphenated_hyphenated, Option.some_or]⟩

/-- Two requests read the session before either of them appends. -/
def overlap : List (UploadInput plainUploads 7) :=
  [.spawn 0 (upload [10]), .spawn 1 (upload [11]), .step 0 ⟨0, none⟩, .step 1 ⟨0, none⟩, .step 0 ⟨0, none⟩,
    .step 1 ⟨0, none⟩]

/-- Two requests after one another, of which the second one completes the upload. -/
def twoChunks : List (UploadInput plainUploads 7) :=
  [.spawn 0 (upload [10]), .step 0 ⟨0, none⟩, .step 0 ⟨0, none⟩, .spawn 1 (upload [11])] ++
    List.replicate 6 (.step 1 ⟨0, none⟩)

end Rustchat.Uploads
