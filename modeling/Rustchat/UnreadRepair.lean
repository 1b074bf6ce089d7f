import Rustchat.UnreadIncrements

/-!
# Repairing the counts of a user

Every operation that may leave a wrong count behind marks the user or overwrites the count later on, and the reconciler
takes the mark away after it has computed everything anew. What it computed may be outdated by then, and so may be what
other operations write; and the position of an author moves without a mark, as posts are deleted without one. `Careful`
says what such a step has to find: then every wrong count is marked when all operations are done
(`Unreads.repairable_of_careful`).
-/

namespace Rustchat.Unreads

/-- The two versions of the cache. -/
inductive Version
  | first
  | second
deriving DecidableEq

theorem Version.forall_iff {p : Version → Prop} : (∀ version, p version) ↔ p .first ∧ p .second :=
  ⟨fun h => ⟨h .first, h .second⟩, fun h version => by cases version <;> simp [h]⟩

instance {p : Version → Prop} [DecidablePred p] : Decidable (∀ version, p version) :=
  decidable_of_iff _ Version.forall_iff.symm

def Store.cachedCount (s : Store) (userId channelId : Uuid) : Version → Option Int
  | .first => s.counts.lookup (.channel userId channelId)
  | .second => (s.cachedChannel userId channelId).map (·.msgCount)

/-- If a count is cached, it is the number of unread posts. -/
def Right (userId : Uuid) (s : Store) (channelId : Uuid) (version : Version) : Prop :=
  ∀ n ∈ s.cachedCount userId channelId version, n = s.unreadCount userId channelId

/-- The dirty key of the user is set. -/
def Marked (userId : Uuid) (s : Store) : Prop := userId ∈ s.dirty

/-- When no operation is in progress, the user is marked if a count is wrong. -/
def Repairable (userId : Uuid) (operations : Operations) : Prop :=
  operations.Quiet → ∀ channelId version, ¬ Right userId operations.shared channelId version →
    Marked userId operations.shared

instance (userId : Uuid) (s : Store) (channelId : Uuid) (version : Version) :
    Decidable (Right userId s channelId version) :=
  inferInstanceAs (Decidable (∀ n ∈ s.cachedCount userId channelId version, _))

instance (userId : Uuid) (s : Store) : Decidable (Marked userId s) :=
  inferInstanceAs (Decidable (userId ∈ s.dirty))

def Store.countAfter (s : Store) (channelId : Uuid) (seq : Int) : Int :=
  (s.posts.filter fun p => p.channelId = channelId ∧ p.deleted = false ∧ seq < p.seq).length

def Store.cachedChannels (s : Store) (userId : Uuid) : List Uuid :=
  (s.counts.keys ++ s.hashes.keys).filterMap fun key =>
    match key with
    | .channel v channelId => if v = userId then some channelId else none
    | .team _ _ => none

section Owing

variable (db : Tables) (userId channelId : Uuid)

def countsUp : Sigma UnreadAct.Res → Bool
  | ⟨.insertPost post, r⟩ =>
    r.isSome && decide (post.channelId = channelId ∧ post.userId ≠ userId ∧ (channelId, userId) ∈ db.members)
  | ⟨.incr key, _⟩ => key = .channel userId channelId
  | ⟨.hincrby key _, _⟩ => key = .channel userId channelId
  | ⟨.hset key values, _⟩ => decide (key = .channel userId channelId) && !values.any fun v => v.1 == "msg_count"
  | _ => false

def marks : Sigma UnreadAct.Res → Bool
  | ⟨.saddDirty v _, _⟩ => v = userId
  | _ => false

/-- The user has sent a post. -/
def sends : Sigma UnreadAct.Res → Bool
  | ⟨.insertPost post, r⟩ => r.isSome && decide (post.userId = userId ∧ post.channelId = channelId)
  | _ => false

def moves : Sigma UnreadAct.Res → Bool
  | ⟨.upsertRead v c _, r⟩ => r.isSome && decide (v = userId ∧ c = channelId)
  | _ => false

def overwrites : Version → Sigma UnreadAct.Res → Bool
  | .first, ⟨.set key _, _⟩ => key = .channel userId channelId
  | .first, ⟨.del key, _⟩ => key = .channel userId channelId
  | .second, ⟨.hset key values, _⟩ =>
    decide (key = .channel userId channelId) && values.any fun v => v.1 == "msg_count"
  | .second, ⟨.delHash key, _⟩ => key = .channel userId channelId
  | _, _ => false

def Operation.isPost : Operation → Bool
  | .createPost _ => true
  | _ => false

/-- An operation that has performed `es` is still to mark the user, to move the position of the author, or to overwrite
the count after the position. -/
def Owes (op : Operation) (version : Version) (es : List (Sigma UnreadAct.Res)) : Prop :=
  Run.LastIs (fun x => countsUp db userId channelId x = true) (fun x => marks userId x = true) es ∨
    Run.LastIs (fun x => sends userId channelId x = true) (fun x => moves userId channelId x = true) es ∨
      (op.isPost = false ∧
        Run.LastIs (fun x => moves userId channelId x = true) (fun x => overwrites userId channelId version x = true) es)

instance (op : Operation) (version : Version) (es : List (Sigma UnreadAct.Res)) :
    Decidable (Owes db userId channelId op version es) := inferInstanceAs (Decidable (_ ∨ _ ∨ _ ∧ _))

end Owing

section Careful

variable (db : Tables) (userId : Uuid) (older : List Event) (e : Event)

/-- Another operation is still to mark the user, to move the position of the author, or to overwrite the count. -/
def Pending (channelId : Uuid) (version : Version) : Prop :=
  ∃ other ∈ older, other.task ≠ e.task ∧ Owes db userId channelId other.label version (Pool.performed older other.task)

instance (channelId : Uuid) (version : Version) : Decidable (Pending db userId older e channelId version) :=
  inferInstanceAs (Decidable (∃ other ∈ older, _ ∧ _))

/-- Before the step the user is marked, or another operation is still to repair the count. -/
def Backed (channelId : Uuid) (version : Version) : Prop :=
  Marked userId e.before ∨ Pending db userId older e channelId version

instance (channelId : Uuid) (version : Version) : Decidable (Backed db userId older e channelId version) :=
  inferInstanceAs (Decidable (_ ∨ _))

/-- The post is accepted and unread for the user, and nobody counts it up for a user who is no member. -/
def Uncounted (post : PostRow) : Prop :=
  post.channelId ∈ db.teams ∧ (∀ p ∈ e.before.posts, p.id ≠ post.id) ∧ post.userId ≠ userId ∧
    (post.channelId, userId) ∉ db.members ∧ e.before.position userId post.channelId < post.seq

instance (post : PostRow) : Decidable (Uncounted db userId e post) := inferInstanceAs (Decidable (_ ∧ _))

/-- What a step asks of the state before it, if nothing that the same operation does later makes up for it. -/
def Careful : Prop :=
  match e.act with
  -- a count that was computed is written while it is still the number of unread posts
  | .set (.channel v channelId) n =>
    v = userId → n = e.before.unreadCount userId channelId ∨ Backed db userId older e channelId .first
  | .hset (.channel v channelId) values =>
    v = userId → (∀ value ∈ values, value.1 = "msg_count" → value.2 = e.before.unreadCount userId channelId) ∨
      Backed db userId older e channelId .second
  -- the mark is taken away while all counts are right
  | .delDirty v => v = userId → ∀ channelId ∈ e.before.cachedChannels userId, ∀ version,
    Right userId e.before channelId version ∨ Pending db userId older e channelId version
  -- the position moves with a post of the user, past as many posts as the cached count leaves out
  | .upsertRead v channelId seq => v = userId → channelId ∈ db.teams → e.label.isPost = true → ∀ version,
    (∀ n ∈ e.before.cachedCount userId channelId version, n = e.before.countAfter channelId seq) ∨
      Backed db userId older e channelId version
  -- a post comes or goes that counts as unread
  | .insertPost post => Uncounted db userId e post → ∀ version,
    e.before.cachedCount userId post.channelId version = none ∨ Backed db userId older e post.channelId version
  | .deletePost id => ∀ post ∈ e.before.posts, post.id = id → post.deleted = false →
    e.before.position userId post.channelId < post.seq → ∀ version,
      e.before.cachedCount userId post.channelId version = none ∨ Backed db userId older e post.channelId version
  | _ => True

instance : Decidable (Careful db userId older e) := by
  delta Careful
  generalize e.act = act
  match act with
  | .set (.channel _ _) _ | .set (.team _ _) _ | .hset (.channel _ _) _ | .hset (.team _ _) _ => infer_instance
  | .insertPost _ | .deletePost _ | .selectTeam _ | .selectMembers _ | .selectUserChannels _ | .selectUsername _
  | .selectMaxSeq _ _ | .upsertRead _ _ _ | .selectChannelUnread _ _ _ | .selectTeamChannels _ _ _
  | .selectTeamThreads _ _ _ | .connect | .get _ | .del _ | .incr _ | .hmget _ _ | .hincrby _ _ | .delHash _
  | .saddDirty _ _ | .delDirty _ | .setLastMsgId _ _ | .broadcast _ => infer_instance

end Careful

/-- What the database and Redis answer, when all is well. -/
def Honest (db : Tables) : (act : UnreadAct) → act.Res → Prop
  | .insertPost post, r => r.isSome = true → post.channelId ∈ db.teams
  | .selectTeam channelId, r => r = db.teams.lookup channelId
  | .selectMembers channelId, r => r = db.membersOf channelId
  | .selectUserChannels v, r => r = db.channelsOf v
  | .upsertRead _ channelId _, r => r.isSome = decide (channelId ∈ db.teams)
  | .connect, r => r = .ok ()
  | _, _ => True

theorem honest_perform (db : Tables) (act : UnreadAct) (s : Store) :
    Honest db act (Store.perform db (.ok ()) act s).1 := by
  cases act with
  | insertPost post =>
    show (s.insertPost db post).1.isSome = true → _
    unfold Store.insertPost
    split
    · next h => exact fun _ => h.1
    · exact fun h => absurd h (by simp)
  | upsertRead v c seq =>
    show (s.upsertRead db v c seq).1.isSome = _
    unfold Store.upsertRead
    split
    · next h => exact (decide_eq_true h).symm
    · next h => exact (decide_eq_false h).symm
  | selectTeam c => rfl
  | selectMembers c => rfl
  | selectUserChannels v => rfl
  | connect => rfl
  | _ => exact trivial

section Ends

variable {db : Tables} {userId channelId teamId : Uuid} {username : String} {α : Type}

abbrev Succeeds (db : Tables) (p : UnreadProg α) : Prop := Prog.Ends (Honest db) (fun _ => True) p

theorem ends_query (act : UnreadAct) : Prog.Ends (Honest db) (Honest db act) (query act) := Prog.ends_lift

theorem succeeds_query {act : UnreadAct} : Succeeds db (query act) := (ends_query act).mono fun _ _ => trivial

theorem ends_fetchTeamId (h : db.teams.lookup channelId = some teamId) :
    Prog.Ends (Honest db) (· = teamId) (fetchTeamId channelId) := by
  refine (ends_query _).bind fun team hteam => ?_
  rw [show team = some teamId from Eq.trans hteam h]
  exact Prog.ends_pure rfl

theorem succeeds_fetchUsername : Succeeds db (fetchUsername userId) := by
  refine (ends_query _).bind fun username _ => ?_
  split <;> exact Prog.ends_pure trivial

theorem ends_computeChannelUnreadFromDb : Prog.Ends (Honest db) (fun channel => channel.channelId = channelId)
    (computeChannelUnreadFromDb db.config userId channelId username) := by
  refine (ends_query _).bind fun row _ => Prog.ends_pure ?_
  cases row <;> rfl

theorem succeeds_computeTeamUnreadFromDb :
    Succeeds db (computeTeamUnreadFromDb db.config userId teamId username) :=
  (ends_query _).bind fun _ _ => (ends_query _).bind fun _ _ => Prog.ends_pure trivial

theorem succeeds_writeLegacyCount {key : CountKey} {count : Int} :
    Succeeds db (writeLegacyCount key count) := by
  unfold writeLegacyCount
  split <;> exact succeeds_query

theorem succeeds_writePosition {seq : Int} (h : channelId ∈ db.teams) :
    Succeeds db (writePosition userId channelId seq) := by
  refine (ends_query _).bind fun written hwritten => ?_
  obtain ⟨w, rfl⟩ := Option.isSome_iff_exists.1 (Eq.trans hwritten (decide_eq_true h))
  exact Prog.ends_pure trivial

theorem succeeds_incrementHash {key : CountKey} : Succeeds db (incrementHash key) :=
  succeeds_query.bind fun _ _ => succeeds_query.bind fun _ _ => succeeds_query

theorem succeeds_incrementMember {memberId : Uuid} :
    Succeeds db (incrementMember channelId teamId memberId) :=
  succeeds_query.bind fun _ _ => succeeds_query.bind fun _ _ => succeeds_incrementHash.bind fun _ _ =>
    succeeds_incrementHash.bind fun _ _ => succeeds_query.bind fun _ _ => succeeds_query.bind fun _ _ => succeeds_query

theorem succeeds_markPositions (h : channelId ∈ db.teams) : Succeeds db (markPositions userId channelId) :=
  succeeds_query.bind fun _ _ => succeeds_writePosition h

theorem mem_teams_of_channelsOf {channel : Uuid × Uuid} (h : channel ∈ db.channelsOf userId) :
    channel.1 ∈ db.teams := by
  obtain ⟨key, -, hkey⟩ := List.mem_filterMap.1 h
  split at hkey
  · obtain ⟨teamId, hteam, rfl⟩ := Option.map_eq_some_iff.1 hkey
    exact AList.lookup_isSome.1 (by rw [hteam]; rfl)
  · cases hkey

end Ends

section Posts

variable {db : Tables} {userId channelId teamId : Uuid} {post : PostRow} {α : Type}
    {off : Sigma UnreadAct.Res → Prop}

theorem recounts_clears {p : UnreadProg α} {on : Sigma UnreadAct.Res → Bool} (h : Recounts p)
    (hon : ∀ act r, act.counts = false → on ⟨act, r⟩ = false) :
    p.run.Clears (Honest db) (fun x => on x = true) off :=
  (h []).clears fun _ act r hact _ => by rw [hon act r hact]; simp

theorem countsUp_of_recount (act : UnreadAct) (r : act.Res) (h : act.counts = false) :
    countsUp db userId channelId ⟨act, r⟩ = false := by
  cases act with
  | hset key values => simp only [countsUp, show (!values.any fun v => v.1 == "msg_count") = false from h,
    Bool.and_false]
  | insertPost post => cases h
  | incr key => cases h
  | hincrby key field => cases h
  | _ => rfl

theorem sends_of_recount (act : UnreadAct) (r : act.Res) (h : act.counts = false) :
    sends userId channelId ⟨act, r⟩ = false := by
  cases act with
  | insertPost post => cases h
  | _ => rfl

theorem moves_of_recount (act : UnreadAct) (r : act.Res) (h : act.counts = false) :
    moves userId channelId ⟨act, r⟩ = false := by
  cases act with
  | upsertRead v c seq => cases h
  | _ => rfl

def markMember (channelId teamId memberId : Uuid) : UnreadProg Unit := do
  query (.saddDirty memberId (channelMarker channelId))
  let count ← query (.get (.channel memberId channelId))
  query (.broadcast (unreadCountsEnvelope channelId teamId memberId (count.getD 0)))

theorem incrementMember_eq (memberId : Uuid) : incrementMember channelId teamId memberId = (do
      query (.incr (.channel memberId channelId))
      query (.incr (.team memberId teamId))
      incrementHash (.channel memberId channelId)
      incrementHash (.team memberId teamId)) >>= fun _ => markMember channelId teamId memberId := by
  simp only [bind_assoc]
  rfl

theorem reaches_markMember : (markMember channelId teamId userId).run.Reaches (Honest db) fun x => marks userId x = true :=
  Prog.reaches_run_call.2 fun _ _ => .inl (decide_eq_true rfl)

theorem reaches_incrementMember :
    (incrementMember channelId teamId userId).run.Reaches (Honest db) fun x => marks userId x = true := by
  rw [incrementMember_eq]
  exact (succeeds_query.bind fun _ _ => succeeds_query.bind fun _ _ => succeeds_incrementHash.bind fun _ _ =>
    succeeds_incrementHash).reaches fun _ _ => reaches_markMember

theorem recounts_markMember {memberId : Uuid} : Recounts (markMember channelId teamId memberId) :=
  (recounts_query rfl).bind fun _ => (recounts_query rfl).bind fun _ => recounts_query rfl

variable (db userId channelId) in
def CountsElse (p : UnreadProg α) : Prop :=
  Prog.Always (fun _ act => ∀ r, countsUp db userId channelId ⟨act, r⟩ = false) p

theorem countsElse_incrementHash {key : CountKey} (h : key ≠ .channel userId channelId) :
    CountsElse db userId channelId (incrementHash key) := by
  have hkey : decide (key = .channel userId channelId) = false := decide_eq_false h
  refine (Prog.always_lift fun _ _ => hkey).bind fun _ => (Prog.always_lift fun _ _ => hkey).bind fun _ =>
    Prog.always_lift fun _ _ => ?_
  simp only [countsUp, hkey, Bool.false_and]

theorem countsElse_of_recounts {p : UnreadProg α} (h : Recounts p) : CountsElse db userId channelId p :=
  h.mono fun _ act hact r => countsUp_of_recount act r hact

theorem clears_incrementMember (memberId c : Uuid) : (incrementMember c teamId memberId).run.Clears (Honest db)
    (fun x => countsUp db userId channelId x = true) fun x => marks userId x = true := by
  rw [incrementMember_eq]
  by_cases hu : memberId = userId
  · subst hu
    exact (succeeds_query.bind fun _ _ => succeeds_query.bind fun _ _ => succeeds_incrementHash.bind fun _ _ =>
      succeeds_incrementHash).clears fun _ _ => ⟨reaches_markMember,
        recounts_clears recounts_markMember countsUp_of_recount⟩
  · have hkey : ∀ {key : CountKey}, key = .channel memberId c ∨ key = .team memberId teamId →
        key ≠ .channel userId channelId := by
      rintro key (rfl | rfl)
      · intro heq
        cases heq
        exact hu rfl
      · nofun
    have helse : CountsElse db userId channelId ((do
        query (.incr (.channel memberId c))
        query (.incr (.team memberId teamId))
        incrementHash (.channel memberId c)
        incrementHash (.team memberId teamId)) >>= fun _ => markMember c teamId memberId) :=
      Prog.Always.bind ((Prog.always_lift fun _ _ => decide_eq_false (hkey (.inl rfl))).bind fun _ =>
        (Prog.always_lift fun _ _ => decide_eq_false (hkey (.inr rfl))).bind fun _ =>
          (countsElse_incrementHash (hkey (.inl rfl))).bind fun _ => countsElse_incrementHash (hkey (.inr rfl)))
        fun _ => countsElse_of_recounts recounts_markMember
    exact (helse []).clears fun _ act r hact _ => by rw [hact r]; simp

theorem reaches_incrementUnreads (hteam : channelId ∈ db.teams) (hmember : (channelId, userId) ∈ db.members)
    {authorId : Uuid} (hu : userId ≠ authorId) {seq : Int} :
    (incrementUnreads channelId authorId seq).run.Reaches (Honest db) fun x => marks userId x = true := by
  obtain ⟨teamId, hteamId⟩ := Option.isSome_iff_exists.1 (AList.lookup_isSome.2 hteam)
  obtain ⟨member, hlookup⟩ := Option.isSome_iff_exists.1 (AList.lookup_isSome.2 hmember)
  refine (ends_fetchTeamId hteamId).reaches fun _ _ => (succeeds_writePosition hteam).reaches fun _ _ =>
    (ends_query _).reaches fun members hmembers => (ends_query _).reaches fun conn hconn => ?_
  rw [show conn = .ok () from hconn]
  have hmem : userId ∈ members.filter (· ≠ authorId) := by
    rw [show members = db.membersOf channelId from hmembers]
    exact List.mem_filter.2 ⟨mem_membersOf hlookup, decide_eq_true hu⟩
  exact succeeds_query.reaches fun _ _ =>
    Prog.reaches_forM hmem reaches_incrementMember fun _ _ => succeeds_incrementMember

theorem countsElse_writePosition {v c : Uuid} {seq : Int} :
    CountsElse db userId channelId (writePosition v c seq) := by
  refine (Prog.always_lift fun _ _ => rfl).bind fun written => ?_
  split
  · exact Prog.always_throw _
  · exact Prog.always_pure _

theorem clears_of_countsElse {p : UnreadProg α} (h : CountsElse db userId channelId p) : p.run.Clears (Honest db)
    (fun x => countsUp db userId channelId x = true) off :=
  (h []).clears fun _ act r hact _ => by rw [hact r]; simp

theorem clears_incrementUnreads {c authorId : Uuid} {seq : Int} : (incrementUnreads c authorId seq).run.Clears (Honest db)
    (fun x => countsUp db userId channelId x = true) fun x => marks userId x = true := by
  refine Prog.clears_run_bind (clears_of_countsElse (countsElse_of_recounts recounts_fetchTeamId)) fun teamId =>
    Prog.clears_run_bind (clears_of_countsElse countsElse_writePosition) fun _ =>
      Prog.clears_run_bind (clears_of_countsElse (countsElse_of_recounts (recounts_query rfl))) fun members =>
        Prog.clears_run_bind (clears_of_countsElse (countsElse_of_recounts (recounts_query rfl))) fun conn => ?_
  split
  · exact clears_of_countsElse (countsElse_of_recounts (Prog.always_forM (fun _ => recounts_markDirtyBestEffort) _))
  · exact Prog.clears_run_bind (clears_of_countsElse (countsElse_of_recounts (recounts_query rfl))) fun _ =>
      Prog.clears_forM fun memberId _ => clears_incrementMember memberId c

theorem clears_createPost_counts (post : PostRow) : (createPost post).run.Clears (Honest db)
    (fun x => countsUp db userId channelId x = true) fun x => marks userId x = true := by
  refine Prog.clears_run_call.2 fun inserted hin => ⟨fun hon => ?_, ?_⟩
  · rw [countsUp, Bool.and_eq_true, decide_eq_true_eq] at hon
    obtain ⟨hsome, rfl, hu, hmember⟩ := hon
    obtain ⟨w, rfl⟩ := Option.isSome_iff_exists.1 hsome
    exact reaches_incrementUnreads (hin rfl) hmember (Ne.symm hu)
  · split
    · exact trivial
    · exact clears_incrementUnreads

theorem clears_of_never {p : UnreadProg α} {on : Sigma UnreadAct.Res → Bool}
    (h : Prog.Always (fun _ act => ∀ r, on ⟨act, r⟩ = false) p) :
    p.run.Clears (Honest db) (fun x => on x = true) off :=
      (h []).clears fun _ act r hact _ => by rw [hact r]; simp

theorem reaches_writePosition {seq : Int} (hteam : channelId ∈ db.teams) :
    (writePosition userId channelId seq).run.Reaches (Honest db) fun x => moves userId channelId x = true := by
  refine Prog.reaches_run_call.2 fun written hwritten => .inl ?_
  have hsome : written.isSome = true := Eq.trans hwritten (decide_eq_true hteam)
  simp [moves, hsome]

theorem clears_createPost_sends (post : PostRow) : (createPost post).run.Clears (Honest db)
    (fun x => sends userId channelId x = true) fun x => moves userId channelId x = true := by
  refine Prog.clears_run_call.2 fun inserted hin => ⟨fun hon => ?_, ?_⟩
  · rw [sends, Bool.and_eq_true, decide_eq_true_eq] at hon
    obtain ⟨hsome, rfl, rfl⟩ := hon
    obtain ⟨w, rfl⟩ := Option.isSome_iff_exists.1 hsome
    have hteam := hin rfl
    obtain ⟨teamId, hteamId⟩ := Option.isSome_iff_exists.1 (AList.lookup_isSome.2 hteam)
    exact (ends_fetchTeamId hteamId).reaches fun _ _ => Prog.reaches_run_bind (reaches_writePosition hteam)
  · split
    · exact trivial
    · refine clears_of_never ?_
      have hrecounts : ∀ {β : Type} {p : UnreadProg β}, Recounts p →
          Prog.Always (fun _ act => ∀ r, sends userId channelId ⟨act, r⟩ = false) p :=
        fun h => h.mono fun _ act hact r => sends_of_recount act r hact
      have hcaches : ∀ {p : UnreadProg Unit}, Caches p →
          Prog.Always (fun _ act => ∀ r, sends userId channelId ⟨act, r⟩ = false) p := by
        refine fun h => h.mono fun _ act hact r => ?_
        cases act with
        | insertPost post => cases hact
        | _ => rfl
      refine (hrecounts recounts_fetchTeamId).bind fun _ => Prog.Always.bind ?_ fun _ =>
        (hrecounts (recounts_query rfl)).bind fun _ => (hrecounts (recounts_query rfl)).bind fun conn => ?_
      · refine (Prog.always_lift fun _ _ => rfl).bind fun written => ?_
        split
        · exact Prog.always_throw _
        · exact Prog.always_pure _
      · split
        · exact Prog.always_forM (fun _ => hrecounts recounts_markDirtyBestEffort) _
        · exact (hrecounts (recounts_query rfl)).bind fun _ => Prog.always_forM (fun _ => hcaches caches_incrementMember) _

end Posts

section Reads

variable {db : Tables} {userId channelId teamId : Uuid} {version : Version} {α : Type}
    {off : Sigma UnreadAct.Res → Prop}

theorem reaches_writeLegacyCount {count : Int} : (writeLegacyCount (.channel userId channelId) count).run.Reaches
    (Honest db) fun x => overwrites userId channelId .first x = true := by
  unfold writeLegacyCount
  split <;> exact fun _ _ => .inl (decide_eq_true rfl)

theorem reaches_writeUnread {channel : ChannelUnreadV2} {team : TeamUnreadV2} (h : channel.channelId = channelId) :
    (writeUnread userId channel team).run.Reaches (Honest db) fun x => overwrites userId channelId version x = true := by
  subst h
  cases version with
  | first => exact Prog.reaches_run_bind reaches_writeLegacyCount
  | second =>
    refine succeeds_writeLegacyCount.reaches fun _ _ => succeeds_writeLegacyCount.reaches fun _ _ =>
      Prog.reaches_run_call.2 fun _ _ => .inl ?_
    simp [overwrites, ChannelUnreadV2.values]

theorem reaches_cacheChannelUnreadBestEffort {channel : ChannelUnreadV2} {team : TeamUnreadV2}
    (h : channel.channelId = channelId) : (cacheChannelUnreadBestEffort userId channel team).run.Reaches (Honest db)
      fun x => overwrites userId channelId version x = true := by
  refine (ends_query _).reaches fun conn hconn => ?_
  rw [show conn = .ok () from hconn]
  exact reaches_writeUnread h

theorem clears_writePosition_else {v c : Uuid} {seq : Int} (h : ¬ (v = userId ∧ c = channelId ∧ c ∈ db.teams)) :
    (writePosition v c seq).run.Clears (Honest db) (fun x => moves userId channelId x = true) off := by
  refine Prog.clears_run_call.2 fun written hwritten => ⟨fun hon => ?_, ?_⟩
  · rw [moves, Bool.and_eq_true, decide_eq_true_eq] at hon
    obtain ⟨hsome, rfl, rfl⟩ := hon
    exact absurd ⟨rfl, rfl, of_decide_eq_true (Eq.trans (Eq.symm hwritten) hsome)⟩ h
  · split <;> exact trivial

theorem clears_markChannelAsRead (v c : Uuid) (target : Option Int) :
    (markChannelAsRead db.config v c target).run.Clears (Honest db) (fun x => moves userId channelId x = true)
      fun x => overwrites userId channelId version x = true := by
  refine Prog.clears_run_bind (recounts_clears recounts_targetSeq moves_of_recount) fun seq => ?_
  by_cases h : v = userId ∧ c = channelId ∧ c ∈ db.teams
  · obtain ⟨rfl, rfl, hteam⟩ := h
    obtain ⟨teamId, hteamId⟩ := Option.isSome_iff_exists.1 (AList.lookup_isSome.2 hteam)
    refine (succeeds_writePosition hteam).clears fun _ _ => ⟨?_,
      recounts_clears recounts_recacheChannel moves_of_recount⟩
    exact (ends_fetchTeamId hteamId).reaches fun _ _ => succeeds_fetchUsername.reaches fun _ _ =>
      ends_computeChannelUnreadFromDb.reaches fun channel hchannel => succeeds_computeTeamUnreadFromDb.reaches fun _ _ =>
        Prog.reaches_run_bind (reaches_cacheChannelUnreadBestEffort hchannel)
  · exact Prog.clears_run_bind (clears_writePosition_else h) fun _ => recounts_clears recounts_recacheChannel moves_of_recount

theorem reaches_dropCached {order : List Uuid → List Uuid} {channelRows : List (Uuid × Uuid)} {channel : Uuid × Uuid}
    (h : channel ∈ channelRows) : (dropCached order userId channelRows).run.Reaches (Honest db)
      fun x => overwrites userId channel.1 version x = true := by
  refine (ends_query _).reaches fun conn hconn => ?_
  rw [show conn = .ok () from hconn]
  refine Prog.reaches_run_bind (Prog.reaches_forM h ?_ fun _ _ => succeeds_query.bind fun _ _ => succeeds_query)
  cases version with
  | first => exact Prog.reaches_run_call.2 fun _ _ => .inl (decide_eq_true rfl)
  | second => exact succeeds_query.reaches fun _ _ => fun _ _ => .inl (decide_eq_true rfl)

theorem clears_markAllAsRead (order : List Uuid → List Uuid) (v : Uuid) :
    (markAllAsRead order v).run.Clears (Honest db) (fun x => moves userId channelId x = true)
      fun x => overwrites userId channelId version x = true := by
  have hdrop : ∀ {rows : List (Uuid × Uuid)}, (dropCached order v rows).run.Clears (Honest db)
      (fun x => moves userId channelId x = true) fun x => overwrites userId channelId version x = true :=
    recounts_clears recounts_dropCached moves_of_recount
  refine Prog.clears_run_call.2 fun rows hrows => ⟨fun hon => (by cases hon), ?_⟩
  have hteams : ∀ channel ∈ rows, channel.1 ∈ db.teams := by
    rw [show rows = db.channelsOf v from hrows]
    exact fun channel => mem_teams_of_channelsOf
  by_cases h : v = userId ∧ ∃ channel ∈ rows, channel.1 = channelId
  · obtain ⟨rfl, channel, hchannel, rfl⟩ := h
    exact (Prog.ends_forM fun channel hchannel => succeeds_markPositions (hteams channel hchannel)).clears
      fun _ _ => ⟨reaches_dropCached hchannel, hdrop⟩
  · refine Prog.clears_run_bind (Prog.clears_forM fun channel hchannel => ?_) fun _ => hdrop
    refine Prog.clears_run_bind (recounts_clears (recounts_query rfl) moves_of_recount) fun _ =>
      clears_writePosition_else ?_
    rintro ⟨rfl, hc, -⟩
    exact h ⟨rfl, channel, hchannel, hc⟩

end Reads

section Operations

variable {db : Tables} {order : List Uuid → List Uuid} {userId channelId : Uuid} {version : Version}
    {op : Operation}

theorem clears_none {on off : Sigma UnreadAct.Res → Prop} {p : UnreadProg Unit} (h : p.run.Clears (Honest db) on off) :
    (do p; pure none : UnreadProg (Option UnreadOverview)).run.Clears (Honest db) on off :=
  Prog.clears_run_bind h fun _ => trivial

theorem clears_some {on : Sigma UnreadAct.Res → Bool} {off : Sigma UnreadAct.Res → Prop} {p : UnreadProg UnreadOverview}
    (h : Recounts p) (hon : ∀ act r, act.counts = false → on ⟨act, r⟩ = false) :
    (some <$> p : UnreadProg (Option UnreadOverview)).run.Clears (Honest db) (fun x => on x = true) off := by
  rw [map_eq_pure_bind]
  exact Prog.clears_run_bind (recounts_clears h hon) fun _ => trivial

theorem clears_read {on : Sigma UnreadAct.Res → Bool} {off : Sigma UnreadAct.Res → Prop}
    (hmoves : ∀ v c seq r, on ⟨.upsertRead v c seq, r⟩ = false) {v c : Uuid} {seq : Int} :
    (writePosition v c seq).run.Clears (Honest db) (fun x => on x = true) off := by
  refine clears_of_never ((Prog.always_lift fun _ r => hmoves v c seq r).bind fun written => ?_)
  split
  · exact Prog.always_throw _
  · exact Prog.always_pure _

theorem clears_operation {on : Sigma UnreadAct.Res → Bool} {off : Sigma UnreadAct.Res → Prop}
    (hon : ∀ act r, act.counts = false → on ⟨act, r⟩ = false)
    (hmoves : ∀ v c seq r, on ⟨.upsertRead v c seq, r⟩ = false)
    (hdelete : ∀ id r, on ⟨.deletePost id, r⟩ = false)
    (hcreate : ∀ post, (createPost post).run.Clears (Honest db) (fun x => on x = true) off) :
    (program db.config order op).Clears (Honest db) (fun x => on x = true) off := by
  cases op with
  | createPost post => exact clears_none (hcreate post)
  | deletePost id => exact clears_none (clears_of_never (Prog.always_lift fun _ r => hdelete id r))
  | markChannelAsRead v c target =>
    exact clears_none (Prog.clears_run_bind (recounts_clears recounts_targetSeq hon) fun _ =>
      Prog.clears_run_bind (clears_read hmoves) fun _ => recounts_clears recounts_recacheChannel hon)
  | markAllAsRead v =>
    exact clears_none (Prog.clears_run_bind (recounts_clears (recounts_query rfl) hon) fun rows =>
      Prog.clears_run_bind (Prog.clears_forM fun channel _ =>
        Prog.clears_run_bind (recounts_clears (recounts_query rfl) hon) fun _ => clears_read hmoves) fun _ =>
          recounts_clears recounts_dropCached hon)
  | getUnreadOverview v => exact clears_some recounts_getUnreadOverview hon
  | syncUserUnreadCache v => exact clears_none (recounts_clears recounts_syncUserUnreadCache hon)

theorem clears_operation_moves (hop : op.isPost = false) : (program db.config order op).Clears (Honest db)
    (fun x => moves userId channelId x = true) fun x => overwrites userId channelId version x = true := by
  cases op with
  | createPost post => cases hop
  | deletePost id => exact clears_none (clears_of_never (Prog.always_lift fun _ _ => rfl))
  | markChannelAsRead v c target => exact clears_none (clears_markChannelAsRead v c target)
  | markAllAsRead v => exact clears_none (clears_markAllAsRead order v)
  | getUnreadOverview v => exact clears_some recounts_getUnreadOverview moves_of_recount
  | syncUserUnreadCache v => exact clears_none (recounts_clears recounts_syncUserUnreadCache moves_of_recount)

theorem not_owes_of_path {es : List (Sigma UnreadAct.Res)} {r : Except AppError (Option UnreadOverview)}
    (hpath : (program db.config order op).Path es r) (hes : ∀ x ∈ es, Honest db x.1 x.2) :
    ¬ Owes db userId channelId op version es := by
  rintro (hcounts | hsends | ⟨hop, hmoves⟩)
  · exact (clears_operation countsUp_of_recount (fun _ _ _ _ => rfl) (fun _ _ => rfl) clears_createPost_counts).path
      hpath hes hcounts
  · exact (clears_operation sends_of_recount (fun _ _ _ _ => rfl) (fun _ _ => rfl) clears_createPost_sends).path
      hpath hes hsends
  · exact (clears_operation_moves hop).path hpath hes hmoves

end Operations

/-! ### Every step -/

section Step

variable {db : Tables} {userId channelId : Uuid} {version : Version} {older : List Event} {e : Event}

variable (db userId) in
def Owed (events : List Event) (channelId : Uuid) (version : Version) : Prop :=
  ∃ e ∈ events, Owes db userId channelId e.label version (Pool.performed events e.task)

variable (db userId) in
/-- The count is right, the user is marked, or an operation is still to repair the count. -/
def Settled (events : List Event) (s : Store) (channelId : Uuid) (version : Version) : Prop :=
  Right userId s channelId version ∨ Marked userId s ∨ Owed db userId events channelId version

theorem settled_of_pending (h : Pending db userId older e channelId version) :
    Settled db userId (older ++ [e]) e.after channelId version := by
  obtain ⟨other, hother, htask, howes⟩ := h
  refine .inr (.inr ⟨other, List.mem_append_left _ hother, ?_⟩)
  rw [Pool.performed_concat, if_neg (Ne.symm htask), List.append_nil]
  exact howes

theorem settled_of_backed (hmarked : Marked userId e.before → Marked userId e.after)
    (h : Backed db userId older e channelId version) : Settled db userId (older ++ [e]) e.after channelId version :=
  h.elim (fun hm => .inr (.inl (hmarked hm))) settled_of_pending

theorem settled_of_owes (h : ∀ es, Owes db userId channelId e.label version (es ++ [⟨e.act, e.res⟩])) :
    Settled db userId (older ++ [e]) e.after channelId version := by
  refine .inr (.inr ⟨e, List.mem_append_right _ List.mem_cons_self, ?_⟩)
  rw [Pool.performed_concat, if_pos rfl]
  exact h _

theorem settled_of_untouched
    (hcount : e.after.cachedCount userId channelId version = e.before.cachedCount userId channelId version)
    (hunread : e.after.unreadCount userId channelId = e.before.unreadCount userId channelId)
    (hmarked : Marked userId e.before → Marked userId e.after) (hmarks : marks userId ⟨e.act, e.res⟩ = false)
    (hmoves : moves userId channelId ⟨e.act, e.res⟩ = false)
    (hoverwrites : overwrites userId channelId version ⟨e.act, e.res⟩ = false)
    (h : Settled db userId older e.before channelId version) :
    Settled db userId (older ++ [e]) e.after channelId version := by
  rcases h with hright | hm | ⟨other, hother, howes⟩
  · refine .inl fun n hn => ?_
    rw [hunread]
    exact hright n (hcount ▸ hn)
  · exact .inr (.inl (hmarked hm))
  · refine .inr (.inr ⟨other, List.mem_append_left _ hother, ?_⟩)
    rw [Pool.performed_concat]
    split
    · refine howes.imp (fun hlast => ?_) (Or.imp (fun hlast => ?_) (And.imp_right fun hlast => ?_))
      · exact Run.lastIs_concat.2 (.inr ⟨by simp [hmarks], hlast⟩)
      · exact Run.lastIs_concat.2 (.inr ⟨by simp [hmoves], hlast⟩)
      · exact Run.lastIs_concat.2 (.inr ⟨by simp [hoverwrites], hlast⟩)
    · rw [List.append_nil]
      exact howes

variable {s s' : Store}

theorem unreadCount_congr (hposts : s'.posts = s.posts) (hreads : s'.reads = s.reads) :
    s'.unreadCount userId channelId = s.unreadCount userId channelId := by
  unfold Store.unreadCount Store.unreadPosts Store.position
  rw [hposts, hreads]

theorem unreadCount_insert {post : PostRow} (hposts : s'.posts = s.posts ++ [{ post with deleted := false }])
    (hreads : s'.reads = s.reads) (hc : ¬ (post.channelId = channelId ∧ s.position userId channelId < post.seq)) :
    s'.unreadCount userId channelId = s.unreadCount userId channelId := by
  have hnew : ([{ post with deleted := false }] : List PostRow).filter (fun q =>
      q.channelId = channelId ∧ q.deleted = false ∧ s.position userId channelId < q.seq) = [] := by
    refine List.filter_eq_nil_iff.2 fun q hq hp => ?_
    rw [List.mem_singleton.1 hq] at hp
    exact hc ⟨(of_decide_eq_true hp).1, (of_decide_eq_true hp).2.2⟩
  have hposition : s'.position userId channelId = s.position userId channelId := by
    unfold Store.position
    rw [hreads]
  unfold Store.unreadCount Store.unreadPosts
  rw [hposts, List.filter_append, hposition, hnew, List.append_nil]

theorem unreadCount_delete {id : Uuid} (h : ¬ ∃ p ∈ s.posts, p.id = id ∧ p.channelId = channelId ∧ p.deleted = false ∧
    s.position userId channelId < p.seq) :
    (s.deletePost id).unreadCount userId channelId = s.unreadCount userId channelId := by
  have hposition : (s.deletePost id).position userId channelId = s.position userId channelId := rfl
  unfold Store.unreadCount Store.unreadPosts
  rw [hposition, Store.deletePost]
  congr 1
  generalize s.position userId channelId = seq at h ⊢
  generalize s.posts = posts at h ⊢
  induction posts with
  | nil => rfl
  | cons p posts ih =>
    have hrest := ih fun ⟨q, hq, hcounted⟩ => h ⟨q, List.mem_cons_of_mem p hq, hcounted⟩
    rw [List.map_cons, List.filter_cons, List.filter_cons]
    by_cases hid : p.id = id
    · have hp : ¬ (p.channelId = channelId ∧ p.deleted = false ∧ seq < p.seq) := fun hcounted =>
        h ⟨p, List.mem_cons_self, hid, hcounted⟩
      simpa [hid, hp] using hrest
    · rw [if_neg hid]
      split
      · rw [List.length_cons, List.length_cons, hrest]
      · exact hrest

theorem right_hset {values : List (String × Int)} (hmem : ∃ value ∈ values, value.1 = "msg_count")
    (hcount : ∀ value ∈ values, value.1 = "msg_count" → value.2 = s.unreadCount userId channelId) :
    Right userId (s.hset (.channel userId channelId) values) channelId .second := by
  intro n hn
  obtain ⟨channel, hchannel, rfl⟩ := Option.map_eq_some_iff.1 hn
  have hwritten : ((s.hset (.channel userId channelId) values).hash (.channel userId channelId)).lookup "msg_count" =
      some (s.unreadCount userId channelId) := by
    rw [hash_hset, if_pos rfl]
    exact Assoc.lookup_foldl_insert hcount (.inl hmem)
  unfold Store.cachedChannel ChannelUnreadV2.ofValues channelFields at hchannel
  split at hchannel
  · cases hchannel
  · cases hchannel
    simp only [List.map_cons, hwritten, List.getElem?_cons_zero, Option.join_some, Option.getD_some]
    rfl

theorem mem_cachedChannels {n : Int} (h : n ∈ s.cachedCount userId channelId version) :
    channelId ∈ s.cachedChannels userId := by
  have hkey : CountKey.channel userId channelId ∈ s.counts.keys ++ s.hashes.keys := by
    cases version with
    | first => exact List.mem_append_left _ (AList.mem_keys.2 (AList.lookup_isSome.1 (by rw [show s.counts.lookup _ = some n from h]; rfl)))
    | second =>
      refine List.mem_append_right _ (AList.mem_keys.2 ?_)
      by_contra hnone
      have hhash : s.hash (.channel userId channelId) = ∅ := by
        unfold Store.hash
        rw [AList.lookup_eq_none.2 hnone]
        rfl
      have hcached : s.cachedChannel userId channelId = none := by
        unfold Store.cachedChannel
        rw [hhash]
        rfl
      rw [Store.cachedCount, hcached] at h
      cases h
  exact List.mem_filterMap.2 ⟨_, hkey, if_pos rfl⟩

theorem settled_of_none {events : List Event} (h : s.cachedCount userId channelId version = none) :
    Settled db userId events s channelId version := .inl fun n hn => by rw [h] at hn; cases hn

theorem settled_of_same {t : ℕ} {op : Operation} {act : UnreadAct} {r : act.Res}
    (hmarks : marks userId ⟨act, r⟩ = false) (hmoves : moves userId channelId ⟨act, r⟩ = false)
    (hoverwrites : overwrites userId channelId version ⟨act, r⟩ = false)
    (h : Settled db userId older s channelId version) :
    Settled db userId (older ++ [⟨t, op, act, r, s, s⟩]) s channelId version :=
  settled_of_untouched (e := ⟨t, op, act, r, s, s⟩) rfl rfl id hmarks hmoves hoverwrites h

theorem settled_insertPost {t : ℕ} {op : Operation} {post : PostRow} {r : Option Unit}
    (hperf : s.insertPost db post = (r, s'))
    (hcareful : Careful db userId older ⟨t, op, .insertPost post, r, s, s'⟩)
    (h : Settled db userId older s channelId version) :
    Settled db userId (older ++ [⟨t, op, .insertPost post, r, s, s'⟩]) s' channelId version := by
  unfold Store.insertPost at hperf
  split at hperf
  · next haccepted =>
    cases hperf
    have hcount {c : Uuid} :
        Store.cachedCount { s with posts := s.posts ++ [{ post with deleted := false }] } userId c version =
          s.cachedCount userId c version := by
      cases version <;> rfl
    have huntouched (hc : ¬ (post.channelId = channelId ∧ s.position userId channelId < post.seq)) :=
      settled_of_untouched (e := ⟨t, op, .insertPost post, some (), s, _⟩) hcount (unreadCount_insert rfl rfl hc) id rfl rfl
        (by cases version <;> rfl) h
    by_cases hc : post.channelId = channelId
    · subst hc
      by_cases hu : post.userId = userId
      · refine settled_of_owes (e := ⟨t, op, .insertPost post, _, s, _⟩) fun es =>
          .inr (.inl (Run.lastIs_concat.2 (.inl ?_)))
        simp [sends, hu]
      · by_cases hmember : (post.channelId, userId) ∈ db.members
        · refine settled_of_owes (e := ⟨t, op, .insertPost post, _, s, _⟩) fun es =>
            .inl (Run.lastIs_concat.2 (.inl ?_))
          simp [countsUp, hu, hmember]
        · by_cases hunread : s.position userId post.channelId < post.seq
          · rcases hcareful ⟨haccepted.1, haccepted.2, hu, hmember, hunread⟩ version with hnone | hbacked
            · exact settled_of_none (hcount.trans hnone)
            · exact settled_of_backed (e := ⟨t, op, .insertPost post, _, s, _⟩) id hbacked
          · exact huntouched fun hp => hunread hp.2
    · exact huntouched fun hp => hc hp.1
  · cases hperf
    exact settled_of_same rfl rfl (by cases version <;> rfl) h

theorem settled_upsertRead {t : ℕ} {op : Operation} {v c : Uuid} {seq : Int} {r : Option Unit}
    (hperf : s.upsertRead db v c seq = (r, s'))
    (hcareful : Careful db userId older ⟨t, op, .upsertRead v c seq, r, s, s'⟩)
    (h : Settled db userId older s channelId version) :
    Settled db userId (older ++ [⟨t, op, .upsertRead v c seq, r, s, s'⟩]) s' channelId version := by
  unfold Store.upsertRead at hperf
  split at hperf
  · next hteam =>
    cases hperf
    by_cases hkey : v = userId ∧ c = channelId
    · obtain ⟨rfl, rfl⟩ := hkey
      by_cases hop : op.isPost = true
      · rcases hcareful rfl hteam hop version with hcount | hbacked
        · refine .inl fun n hn => ?_
          have hposition : Store.position { s with reads := s.reads.insert (v, c) seq } v c = seq := by
            unfold Store.position
            rw [Assoc.lookup_insert_self]
            rfl
          unfold Store.unreadCount Store.unreadPosts
          rw [hposition]
          exact hcount n (by cases version <;> exact hn)
        · exact settled_of_backed (e := ⟨t, op, .upsertRead v c seq, _, s, _⟩) id hbacked
      · refine settled_of_owes (e := ⟨t, op, .upsertRead v c seq, _, s, _⟩) fun es =>
          .inr (.inr ⟨Bool.not_eq_true _ ▸ hop, Run.lastIs_concat.2 (.inl ?_)⟩)
        simp [moves]
    · refine settled_of_untouched (e := ⟨t, op, .upsertRead v c seq, _, s, _⟩) ?_ ?_ id rfl ?_ ?_ h
      · cases version <;> rfl
      · have hne : (userId, channelId) ≠ (v, c) :=
          fun heq => hkey ⟨(congrArg Prod.fst heq).symm, (congrArg Prod.snd heq).symm⟩
        unfold Store.unreadCount Store.unreadPosts Store.position
        simp only [Assoc.lookup_insert_eq, if_neg hne]
      · simp [moves, hkey]
      · cases version <;> rfl
  · cases hperf
    exact settled_of_same rfl rfl (by cases version <;> rfl) h

theorem settled_of_key {t : ℕ} {op : Operation} {act : UnreadAct} {r : act.Res} (of : Version) (key : CountKey)
    (hcounts : ∀ key', ¬ (of = .first ∧ key' = key) → s'.counts.lookup key' = s.counts.lookup key')
    (hhashes : ∀ key', ¬ (of = .second ∧ key' = key) → s'.hash key' = s.hash key')
    (hposts : s'.posts = s.posts)
    (hreads : s'.reads = s.reads) (hdirty : s'.dirty = s.dirty) (hmarks : marks userId ⟨act, r⟩ = false)
    (hmoves : moves userId channelId ⟨act, r⟩ = false)
    (hoverwrites : ¬ (version = of ∧ key = .channel userId channelId) →
      overwrites userId channelId version ⟨act, r⟩ = false)
    (hhere : version = of → key = .channel userId channelId →
      Settled db userId (older ++ [⟨t, op, act, r, s, s'⟩]) s' channelId version)
    (h : Settled db userId older s channelId version) :
    Settled db userId (older ++ [⟨t, op, act, r, s, s'⟩]) s' channelId version := by
  by_cases hkey : version = of ∧ key = .channel userId channelId
  · exact hhere hkey.1 hkey.2
  · refine settled_of_untouched (e := ⟨t, op, act, r, s, s'⟩) ?_ (unreadCount_congr hposts hreads) ?_ hmarks hmoves
      (hoverwrites hkey) h
    · cases version with
      | first => exact hcounts _ fun heq => hkey ⟨heq.1.symm, heq.2.symm⟩
      | second =>
        show (s'.cachedChannel userId channelId).map _ = (s.cachedChannel userId channelId).map _
        unfold Store.cachedChannel
        rw [hhashes _ fun heq => hkey ⟨heq.1.symm, heq.2.symm⟩]
    · intro hm
      show userId ∈ s'.dirty
      rw [hdirty]
      exact hm

theorem settled_countsUp {t : ℕ} {op : Operation} {act : UnreadAct} {r : act.Res}
    (h : countsUp db userId channelId ⟨act, r⟩ = true) :
    Settled db userId (older ++ [⟨t, op, act, r, s, s'⟩]) s' channelId version :=
  settled_of_owes (e := ⟨t, op, act, r, s, s'⟩) fun _ => .inl (Run.lastIs_concat.2 (.inl h))

theorem settled_deletePost {t : ℕ} {op : Operation} {id : Uuid}
    (hcareful : Careful db userId older ⟨t, op, .deletePost id, (), s, s.deletePost id⟩)
    (h : Settled db userId older s channelId version) :
    Settled db userId (older ++ [⟨t, op, .deletePost id, (), s, s.deletePost id⟩]) (s.deletePost id) channelId version := by
  have hcached : (s.deletePost id).cachedCount userId channelId version = s.cachedCount userId channelId version := by
    cases version <;> rfl
  by_cases hunread : ∃ p ∈ s.posts, p.id = id ∧ p.channelId = channelId ∧ p.deleted = false ∧
    s.position userId channelId < p.seq
  · obtain ⟨p, hp, hid, rfl, hdeleted, hseq⟩ := hunread
    rcases hcareful p hp hid hdeleted hseq version with hnone | hbacked
    · exact settled_of_none (hcached.trans hnone)
    · exact settled_of_backed (e := ⟨t, op, .deletePost id, (), s, _⟩) (fun hm => hm) hbacked
  · refine settled_of_untouched (e := ⟨t, op, .deletePost id, (), s, _⟩) hcached ?_ (fun hm => hm) rfl rfl
      (by cases version <;> rfl) h
    exact unreadCount_delete hunread

theorem settled_step (t : ℕ) (op : Operation) (act : UnreadAct) {r : act.Res}
    (hperf : Store.perform db (.ok ()) act s = (r, s'))
    (hcareful : Careful db userId older ⟨t, op, act, r, s, s'⟩)
    (h : Settled db userId older s channelId version) :
    Settled db userId (older ++ [⟨t, op, act, r, s, s'⟩]) s' channelId version := by
  cases act with
  | insertPost post => exact settled_insertPost hperf hcareful h
  | upsertRead v c seq => exact settled_upsertRead hperf hcareful h
  | deletePost id =>
    cases hperf
    exact settled_deletePost hcareful h
  | set key n =>
    cases hperf
    refine settled_of_key .first key (fun key' hk => ?_) (fun _ _ => rfl) rfl rfl rfl rfl rfl ?_ ?_ h
    · exact Assoc.lookup_insert_eq.trans (if_neg fun heq => hk ⟨rfl, heq⟩)
    · intro hk
      cases version with
      | first => exact decide_eq_false fun heq => hk ⟨rfl, heq⟩
      | second => rfl
    · rintro rfl rfl
      rcases hcareful rfl with hn | hbacked
      · refine .inl fun n' hn' => ?_
        rw [← Option.some.inj (Assoc.lookup_insert_self.symm.trans hn')]
        exact hn
      · exact settled_of_backed (e := ⟨t, op, .set (.channel userId channelId) n, (), s, _⟩) id hbacked
  | del key =>
    cases hperf
    refine settled_of_key .first key (fun key' hk => ?_) (fun _ _ => rfl) rfl rfl rfl rfl rfl ?_ ?_ h
    · exact Assoc.lookup_erase_eq.trans (if_neg fun heq => hk ⟨rfl, heq⟩)
    · intro hk
      cases version with
      | first => exact decide_eq_false fun heq => hk ⟨rfl, heq⟩
      | second => rfl
    · rintro rfl rfl
      exact settled_of_none (Assoc.lookup_erase_eq.trans (if_pos rfl))
  | incr key =>
    cases hperf
    refine settled_of_key .first key (fun key' hk => ?_) (fun _ _ => rfl) rfl rfl rfl rfl rfl
      (fun _ => by cases version <;> rfl) ?_ h
    · exact Assoc.lookup_insert_eq.trans (if_neg fun heq => hk ⟨rfl, heq⟩)
    · rintro - rfl
      exact settled_countsUp (decide_eq_true rfl)
  | hset key values =>
    cases hperf
    refine settled_of_key .second key (fun _ _ => rfl) (fun key' hk => ?_) rfl rfl rfl rfl rfl ?_ ?_ h
    · rw [hash_hset, if_neg fun heq => hk ⟨rfl, heq⟩]
    · intro hk
      cases version with
      | first => rfl
      | second =>
        have hne : key ≠ .channel userId channelId := fun heq => hk ⟨rfl, heq⟩
        simp [overwrites, hne]
    · rintro rfl rfl
      by_cases hvalues : (values.any fun v => v.1 == "msg_count") = true
      · rcases hcareful rfl with hcount | hbacked
        · obtain ⟨value, hvalue, hname⟩ := List.any_eq_true.1 hvalues
          exact .inl (right_hset ⟨value, hvalue, eq_of_beq hname⟩ hcount)
        · exact settled_of_backed (e := ⟨t, op, .hset (.channel userId channelId) values, (), s, _⟩) id hbacked
      · refine settled_countsUp ?_
        simp [countsUp, Bool.eq_false_iff.2 hvalues]
  | hincrby key field =>
    cases hperf
    refine settled_of_key .second key (fun _ _ => rfl) (fun key' hk => ?_) rfl rfl rfl rfl rfl
      (fun _ => by cases version <;> rfl) ?_ h
    · rw [hash_hincrby, if_neg fun heq => hk ⟨rfl, heq⟩]
    · rintro - rfl
      exact settled_countsUp (decide_eq_true rfl)
  | delHash key =>
    cases hperf
    refine settled_of_key .second key (fun _ _ => rfl) (fun key' hk => ?_) rfl rfl rfl rfl rfl ?_ ?_ h
    · rw [hash_delHash, if_neg fun heq => hk ⟨rfl, heq⟩]
    · intro hk
      cases version with
      | first => rfl
      | second => exact decide_eq_false fun heq => hk ⟨rfl, heq⟩
    · rintro rfl rfl
      refine settled_of_none ?_
      unfold Store.cachedCount Store.cachedChannel
      rw [hash_delHash, if_pos rfl]
      rfl
  | saddDirty v marker =>
    cases hperf
    by_cases hv : v = userId
    · subst hv
      exact .inr (.inl ((AList.mem_insert _).2 (.inl rfl)))
    · exact settled_of_untouched (e := ⟨t, op, .saddDirty v marker, (), s, _⟩) (by cases version <;> rfl) rfl
        (fun hm => (AList.mem_insert _).2 (.inr hm)) (decide_eq_false hv) rfl (by cases version <;> rfl) h
  | delDirty v =>
    cases hperf
    by_cases hv : v = userId
    · by_cases hc : channelId ∈ s.cachedChannels userId
      · rcases hcareful hv channelId hc version with hright | hpending
        · refine .inl fun n hn => ?_
          exact hright n (by cases version <;> exact hn)
        · exact settled_of_pending (e := ⟨t, op, .delDirty v, (), s, _⟩) hpending
      · refine settled_of_none ?_
        cases hcount : s.cachedCount userId channelId version with
        | none => cases version <;> exact hcount
        | some n => exact absurd (mem_cachedChannels hcount) hc
    · exact settled_of_untouched (e := ⟨t, op, .delDirty v, (), s, _⟩) (by cases version <;> rfl) rfl
        (fun hm => AList.mem_erase.2 ⟨Ne.symm hv, hm⟩) rfl rfl (by cases version <;> rfl) h
  | setLastMsgId c seq =>
    cases hperf
    exact settled_of_untouched (e := ⟨t, op, .setLastMsgId c seq, (), s, _⟩) (by cases version <;> rfl) rfl id rfl rfl
      (by cases version <;> rfl) h
  | broadcast env =>
    cases hperf
    exact settled_of_untouched (e := ⟨t, op, .broadcast env, (), s, _⟩) (by cases version <;> rfl) rfl id rfl rfl
      (by cases version <;> rfl) h
  | _ =>
    cases hperf
    exact settled_of_same rfl rfl (by cases version <;> rfl) h

end Step

/-! ### Every run -/

/-- Everything succeeds. -/
abbrev stepUp (db : Tables) (order : List Uuid → List Uuid) :
    Operations → Pool.Input Operation Unit → Option Operations :=
  Pool.step (program db.config order) fun _ _ => Store.perform db (.ok ())

abbrev traceUp (db : Tables) (order : List Uuid → List Uuid) (s : Store) (inputs : List (Pool.Input Operation Unit)) :
    List Event :=
  Pool.trace (program db.config order) (fun _ _ => Store.perform db (.ok ())) (Pool.start s) inputs

section Runs

variable {db : Tables} {order : List Uuid → List Uuid} {s : Store} {userId : Uuid}
  {inputs : List (Pool.Input Operation Unit)} {operations : Operations}

theorem settled_of_run (hstart : ∀ channelId version, Right userId s channelId version ∨ Marked userId s)
    (hcareful : Run.Each (Careful db userId) (traceUp db order s inputs))
    (hrun : Run.exec (stepUp db order) (Pool.start s) inputs = some operations) (channelId : Uuid)
    (version : Version) :
    Settled db userId (traceUp db order s inputs) operations.shared channelId version := by
  refine (Pool.shared_invariant (I := fun events s => ∀ channelId version, Settled db userId events s channelId version)
    (fun events s t op _ act h hc channelId version => ?_) hcareful (fun channelId version => ?_) hrun).1 channelId version
  · exact settled_step t op act rfl hc (h channelId version)
  · exact (hstart channelId version).imp_right .inl

theorem not_owed_of_quiet (hrun : Run.exec (stepUp db order) (Pool.start s) inputs = some operations)
    (hquiet : operations.Quiet) (channelId : Uuid) (version : Version) :
    ¬ Owed db userId (traceUp db order s inputs) channelId version := by
  rintro ⟨e, he, howes⟩
  obtain ⟨prog, hl⟩ := Pool.task_of_event hrun e he
  obtain ⟨r, rfl⟩ := hquiet _ _ hl
  refine not_owes_of_path (Pool.path_of_run hrun hl) (fun x hx => ?_) howes
  obtain ⟨e', he', -, rfl⟩ := Pool.mem_performed.1 hx
  obtain ⟨-, hres, -⟩ := Pool.sem_of_run hrun e' he'
  dsimp only
  rw [hres]
  exact honest_perform db e'.act e'.before

/-- In every run of careful steps the user is marked, whenever no operation is in progress and a count is wrong. -/
theorem repairable_of_careful (db : Tables) (order : List Uuid → List Uuid) (s : Store) (userId : Uuid)
    (inputs : List (Pool.Input Operation Unit))
    (hstart : ∀ channelId version, Right userId s channelId version ∨ Marked userId s)
    (hcareful : Run.Each (Careful db userId) (traceUp db order s inputs)) :
    Run.AllStates (stepUp db order) (Repairable userId) (Pool.start s) inputs := by
  intro pre suf hp operations hrun hquiet channelId version hwrong
  have hpre : Run.Each (Careful db userId) (traceUp db order s pre) := by
    rw [hp, traceUp, Pool.trace_append hrun] at hcareful
    exact hcareful.left
  rcases settled_of_run hstart hpre hrun channelId version with hright | hmarked | howed
  · exact absurd hright hwrong
  · exact hmarked
  · exact absurd howed (not_owed_of_quiet hrun hquiet channelId version)

end Runs

/-- User `2` sends a post, the counts of user `1` are reconciled, and then user `1` sends one. -/
def answered : List (Pool.Input Operation Unit) :=
  .spawn 1 (.createPost (pairPost 2 10)) :: List.replicate 17 (.step 1 ()) ++
    .spawn 2 (.syncUserUnreadCache 1) :: List.replicate 11 (.step 2 ()) ++
      .spawn 3 (.createPost (pairPost 1 11)) :: List.replicate 17 (.step 3 ())

/-- Nothing is unread then, and a count of one stays cached. -/
theorem answered_not_repairable : ∃ operations, Run.exec (stepUp pair id) (Pool.start .empty) answered = some operations ∧
    ¬ Repairable 1 operations := by
  refine ⟨_, rfl, fun h => ?_⟩
  have hmarked := h (Pool.quiet_of_all (by decide +kernel)) 5 .first (by decide +kernel)
  revert hmarked
  decide +kernel

/-- A post of user `2` is counted for user `1`, and was reconciled. -/
def unreadPair : Store :=
  { Store.empty with posts := [pairPost 2 10], counts := AList.insert (.channel 1 5) 1 ∅ }

theorem unreadPair_right (channelId : Uuid) (version : Version) : Right 1 unreadPair channelId version := by
  cases version with
  | first =>
    by_cases hc : channelId = 5
    · subst hc
      decide
    · intro n hn
      have hne : CountKey.channel 1 channelId ≠ .channel 1 5 := fun heq => hc (CountKey.channel.inj heq).2
      have hnone : unreadPair.cachedCount 1 channelId .first = none :=
        Assoc.lookup_insert_eq.trans (if_neg hne)
      rw [hnone] at hn
      cases hn
  | second => exact fun n hn => by cases hn

/-- User `1` reads the channel and asks for an overview. -/
def readLater : List (Pool.Input Operation Unit) :=
  .spawn 1 (.markChannelAsRead 1 5 none) :: List.replicate 13 (.step 1 ()) ++
    .spawn 2 (.getUnreadOverview 1) :: List.replicate 5 (.step 2 ())

theorem readLater_repairable : Run.AllStates (stepUp pair id) (Repairable 1)
    (Pool.start unreadPair) readLater :=
  repairable_of_careful pair id unreadPair 1 readLater (fun c version => .inl (unreadPair_right c version))
    (by decide +kernel)

end Rustchat.Unreads
