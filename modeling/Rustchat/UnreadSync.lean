import Rustchat.Client
import Rustchat.Hub

/-!
# Unread counters (`services/unreads.rs`, `stores/unreads.ts`)

`incrementUnreads` counts a new post for every member but its author and tells each of them the count it
cached. The client leaves its counters to these events, but a v4 socket has no message for them
(`mapEnvelopeToMm_unreadCountsUpdated`), so the counter of a channel stays what it was while the cache
counts on: `UnreadSync.agrees_iff`. The read position of the author, the last message id, the team
counters, the hashes of the second schema and the dirty marks are written next to the counter and not
read here.
-/

namespace Rustchat

/-- The tables and the cache of legacy counters, by user and channel. -/
structure UnreadDb where
  teams : Assoc Uuid Uuid
  members : Assoc (Uuid × Uuid) Unit

def UnreadDb.membersOf (db : UnreadDb) (channelId : Uuid) : List Uuid :=
  db.members.keys.filterMap fun k => if k.1 = channelId then some k.2 else none

abbrev UnreadCache := Assoc (Uuid × Uuid) Int

def UnreadCache.count (cache : UnreadCache) (userId channelId : Uuid) : Int :=
  (cache.lookup (userId, channelId)).getD 0

structure NewPost where
  channelId : Uuid
  authorId : Uuid
  -- whether a redis connection can be had
  redisUp : Bool

def unreadCountsEnvelope (channelId teamId memberId : Uuid) (count : Int) : WsEnvelope :=
  (WsEnvelope.new .unreadCountsUpdated (.obj [("channel_id", .str channelId.hyphenated),
    ("team_id", .str teamId.hyphenated), ("unread_count", .num count)]) none).withBroadcast
    ⟨none, none, some memberId, none⟩

def incrementMember (teamId : Uuid) (post : NewPost) (acc : UnreadCache × List WsEnvelope) (memberId : Uuid) :
    UnreadCache × List WsEnvelope :=
  if memberId = post.authorId then acc
  else
    let count := acc.1.count memberId post.channelId + 1
    (acc.1.insert (memberId, post.channelId) count,
      acc.2 ++ [unreadCountsEnvelope post.channelId teamId memberId count])

def incrementUnreads (db : UnreadDb) (cache : UnreadCache) (post : NewPost) :
    Except AppError (UnreadCache × List WsEnvelope) :=
  match db.teams.lookup post.channelId with
  | none => .error .database
  | some teamId =>
    if post.redisUp then .ok ((db.membersOf post.channelId).foldl (incrementMember teamId post) (cache, []))
    else .ok (cache, [])

structure UnreadSync where
  cache : UnreadCache
  client : Client.State
  -- by channel, the count of the last envelope for the user of the client
  announced : Assoc Uuid Int

namespace UnreadSync

variable (codecs : Codecs) (hub : WsHub) (db : UnreadDb) (me : Uuid)

/-- The client receives the envelopes that are addressed to its user. -/
def handle (channelId : Uuid) (s : UnreadSync) (env : WsEnvelope) : UnreadSync :=
  if hub.Addressed env.broadcast me then
    { s with
      client := Client.receive codecs s.client env
      announced :=
        match env.data.get? "unread_count" with
        | some (.num count) => s.announced.insert channelId count
        | _ => s.announced }
  else s

def step (s : UnreadSync) (post : NewPost) : UnreadSync :=
  match incrementUnreads db s.cache post with
  | .ok (cache, envs) => envs.foldl (handle codecs hub me post.channelId) { s with cache := cache }
  | .error _ => s

def run (s : UnreadSync) (posts : List NewPost) : UnreadSync := posts.foldl (step codecs hub db me) s

/-- The counter of every channel that is not viewed is the one announced last. -/
def Agrees (s : UnreadSync) : Prop :=
  ∀ channelId count, s.announced.lookup channelId = some count →
    s.client.currentChannelId ≠ some channelId.hyphenated →
    Client.getChannelUnreadCount s.client channelId.hyphenated = count

/-- The post counts for the user of the client. -/
def Counts (channelId : Uuid) (post : NewPost) : Prop :=
  post.channelId = channelId ∧ post.authorId ≠ me ∧ post.redisUp = true ∧ channelId ∈ db.teams ∧
    me ∈ db.membersOf channelId

instance (channelId : Uuid) (post : NewPost) : Decidable (Counts db me channelId post) :=
  inferInstanceAs (Decidable (_ ∧ _ ∧ _ ∧ _ ∧ _))

def countOf (channelId : Uuid) (posts : List NewPost) : Nat :=
  posts.countP fun post => Counts db me channelId post

/-! ### One post -/

variable {codecs hub db me} {s : UnreadSync} {post : NewPost} {channelId teamId u : Uuid}

theorem mapEnvelopeToMm_unreadCountsUpdated (count : Int) :
    mapEnvelopeToMm codecs (unreadCountsEnvelope channelId teamId u count) = none := by
  have hnone : mapEvent codecs (unreadCountsEnvelope channelId teamId u count) = none := by
    have hcustom : ¬ "custom_".toList.isPrefixOf "unread_counts_updated".toList = true := by decide
    exact if_neg hcustom
  rw [mapEnvelopeToMm, hnone]; rfl

theorem handle_unreadCounts (count : Int) :
    s.handle codecs hub me channelId (unreadCountsEnvelope post.channelId teamId u count) =
      if u = me then { s with announced := s.announced.insert channelId count } else s := by
  have ha : hub.Addressed (unreadCountsEnvelope post.channelId teamId u count).broadcast me ↔ me = u :=
    Iff.rfl
  unfold handle
  by_cases hu : u = me
  · rw [if_pos (ha.2 hu.symm), if_pos hu, Client.receive_of_none (mapEnvelopeToMm_unreadCountsUpdated count)]
    rfl
  · rw [if_neg fun h => hu (ha.1 h).symm, if_neg hu]

theorem count_insert {cache : UnreadCache} {v c c' : Uuid} {n : Int} :
    UnreadCache.count (cache.insert (v, c) n) u c' = if u = v ∧ c' = c then n else cache.count u c' := by
  rw [UnreadCache.count, Assoc.lookup_insert_eq]
  by_cases h : u = v ∧ c' = c
  · rw [if_pos h, if_pos (Prod.ext h.1 h.2)]; rfl
  · rw [if_neg h, if_neg fun he => h ⟨congrArg Prod.fst he, congrArg Prod.snd he⟩]; rfl

variable (codecs hub me post teamId) in
/-- The loop over the members counts once for each of them but the author, and the user of the client
hears of its own count only. -/
theorem foldl_incrementMember {ms : List Uuid} (hn : ms.Nodup) (cache : UnreadCache) (envs : List WsEnvelope) :
    let r := ms.foldl (incrementMember teamId post) (cache, envs)
    (∀ c, r.1.count me c = cache.count me c +
      if me ∈ ms ∧ me ≠ post.authorId ∧ c = post.channelId then 1 else 0) ∧
    ∀ s : UnreadSync, r.2.foldl (handle codecs hub me post.channelId) s =
      let t := envs.foldl (handle codecs hub me post.channelId) s
      if me ∈ ms ∧ me ≠ post.authorId then
        { t with announced := t.announced.insert post.channelId (cache.count me post.channelId + 1) }
      else t := by
  induction ms generalizing cache envs with
  | nil => simp
  | cons v ms ih =>
    obtain ⟨hv, hn⟩ := List.nodup_cons.1 hn
    by_cases hauthor : v = post.authorId
    · -- the author is skipped
      have hstep : incrementMember teamId post (cache, envs) v = (cache, envs) := if_pos hauthor
      obtain ⟨h1, h2⟩ := ih hn cache envs
      have hmem : (me ∈ v :: ms ∧ me ≠ post.authorId) ↔ (me ∈ ms ∧ me ≠ post.authorId) := by
        rw [List.mem_cons, hauthor]; tauto
      rw [List.foldl_cons, hstep]
      refine ⟨fun c => ?_, fun s => ?_⟩
      · rw [h1 c]
        simp only [← and_assoc, hmem]
      · rw [h2 s]
        simp only [hmem]
    · have hstep : incrementMember teamId post (cache, envs) v =
          (cache.insert (v, post.channelId) (cache.count v post.channelId + 1),
            envs ++ [unreadCountsEnvelope post.channelId teamId v (cache.count v post.channelId + 1)]) :=
        if_neg hauthor
      obtain ⟨h1, h2⟩ := ih hn (cache.insert (v, post.channelId) (cache.count v post.channelId + 1))
        (envs ++ [unreadCountsEnvelope post.channelId teamId v (cache.count v post.channelId + 1)])
      rw [List.foldl_cons, hstep]
      by_cases hme : v = me
      · subst v
        refine ⟨fun c => ?_, fun s => ?_⟩
        · rw [h1 c, count_insert]
          by_cases hc : c = post.channelId
          · subst c
            simp [hv, hauthor]
          · simp [hc]
        · rw [h2 s]
          simp only [List.foldl_append, List.foldl_cons, List.foldl_nil, handle_unreadCounts, ↓reduceIte, hv,
            false_and, List.mem_cons_self, true_and, ne_eq, hauthor, not_false_eq_true]
      · have hmem : me ∈ v :: ms ↔ me ∈ ms := by
          rw [List.mem_cons]
          exact ⟨fun h => h.resolve_left (Ne.symm hme), .inr⟩
        have hcount : ∀ c, UnreadCache.count (cache.insert (v, post.channelId) (cache.count v post.channelId + 1)) me c =
            cache.count me c := fun c => by rw [count_insert, if_neg fun h => hme h.1.symm]
        refine ⟨fun c => ?_, fun s => ?_⟩
        · rw [h1 c, hcount]
          simp only [hmem]
        · rw [h2 s]
          simp only [hmem, hcount, List.foldl_append, List.foldl_cons, List.foldl_nil, handle_unreadCounts, hme,
            ↓reduceIte]

/-- The client does not change, the cache counts the post if it counts for the user, and then its count is
the one announced. -/
theorem step_spec (s : UnreadSync) (post : NewPost) :
    (s.step codecs hub db me post).client = s.client ∧
      (∀ c, (s.step codecs hub db me post).cache.count me c =
        s.cache.count me c + if Counts db me c post then 1 else 0) ∧
      ∀ c, (s.step codecs hub db me post).announced.lookup c =
        if Counts db me c post then some (s.cache.count me c + 1) else s.announced.lookup c := by
  unfold step incrementUnreads
  cases ht : db.teams.lookup post.channelId with
  | none =>
    have hno : ∀ c, ¬ Counts db me c post := by
      rintro c ⟨rfl, -, -, hteam, -⟩
      rw [← AList.lookup_isSome, ht] at hteam
      cases hteam
    simp [hno]
  | some teamId =>
    have hteam : post.channelId ∈ db.teams := by rw [← AList.lookup_isSome, ht]; rfl
    by_cases hup : post.redisUp = true
    · have hnodup : (db.membersOf post.channelId).Nodup := Assoc.nodup_sndKeys
      obtain ⟨h1, h2⟩ := foldl_incrementMember codecs hub me post teamId hnodup s.cache []
      have hiff : ∀ c, Counts db me c post ↔
          me ∈ db.membersOf post.channelId ∧ me ≠ post.authorId ∧ c = post.channelId := by
        intro c
        constructor
        · rintro ⟨rfl, ha, -, -, hm⟩
          exact ⟨hm, Ne.symm ha, rfl⟩
        · rintro ⟨hm, ha, rfl⟩
          exact ⟨rfl, Ne.symm ha, hup, hteam, hm⟩
      simp only [if_pos hup, h2, List.foldl_nil]
      by_cases hme : me ∈ db.membersOf post.channelId ∧ me ≠ post.authorId
      · rw [if_pos hme]
        refine ⟨rfl, fun c => ?_, fun c => ?_⟩
        · simp only [hiff]; exact h1 c
        · simp only [Assoc.lookup_insert_eq, hiff, hme.1, hme.2, ne_eq, not_false_eq_true, true_and]
          split
          · next hc => rw [hc]
          · rfl
      · have hno : ∀ c, ¬ Counts db me c post := fun c h => hme ⟨((hiff c).1 h).1, ((hiff c).1 h).2.1⟩
        rw [if_neg hme]
        refine ⟨rfl, fun c => ?_, fun c => ?_⟩
        · simp only [hiff]; exact h1 c
        · rw [if_neg (hno c)]
    · have hno : ∀ c, ¬ Counts db me c post := fun c h => hup h.2.2.1
      simp [hup, hno]

/-! ### Runs -/

theorem run_concat (s : UnreadSync) (posts : List NewPost) (post : NewPost) :
    s.run codecs hub db me (posts ++ [post]) = (s.run codecs hub db me posts).step codecs hub db me post := by
  simp [run]

theorem run_client (s : UnreadSync) (posts : List NewPost) :
    (s.run codecs hub db me posts).client = s.client := by
  induction posts using List.reverseRecOn with
  | nil => rfl
  | append_singleton posts post ih => rw [run_concat, (step_spec _ post).1, ih]

theorem countOf_concat (c : Uuid) (posts : List NewPost) (post : NewPost) :
    countOf db me c (posts ++ [post]) = countOf db me c posts + if Counts db me c post then 1 else 0 := by
  simp [countOf, List.countP_append, List.countP_singleton]

theorem run_cache (s : UnreadSync) (posts : List NewPost) (c : Uuid) :
    (s.run codecs hub db me posts).cache.count me c = s.cache.count me c + countOf db me c posts := by
  induction posts using List.reverseRecOn with
  | nil => simp [run, countOf]
  | append_singleton posts post ih =>
    rw [run_concat, (step_spec _ post).2.1, ih, countOf_concat]
    split
    · push_cast; ring
    · simp

theorem run_announced (s : UnreadSync) (h0 : s.announced = ∅) (posts : List NewPost) (c : Uuid) :
    (s.run codecs hub db me posts).announced.lookup c =
      if countOf db me c posts = 0 then none else some (s.cache.count me c + countOf db me c posts) := by
  induction posts using List.reverseRecOn with
  | nil => simp [run, countOf, h0]
  | append_singleton posts post ih =>
    rw [run_concat, (step_spec _ post).2.2, countOf_concat, run_cache]
    split
    · rw [if_neg (Nat.succ_ne_zero _)]
      push_cast
      rw [add_assoc]
    · exact ih

/-- After a run of posts a client agrees with the announced counters if and only if its counter of every
channel it does not view, and into which posts came that count for its user, was ahead of the cache by
their number. -/
theorem agrees_iff (codecs : Codecs) (hub : WsHub) (db : UnreadDb) (me : Uuid) (cache : UnreadCache)
    (client : Client.State) (posts : List NewPost) :
    (run codecs hub db me ⟨cache, client, ∅⟩ posts).Agrees ↔
      ∀ channelId, 0 < countOf db me channelId posts → client.currentChannelId ≠ some channelId.hyphenated →
        Client.getChannelUnreadCount client channelId.hyphenated =
          cache.count me channelId + countOf db me channelId posts := by
  have hclient : (run codecs hub db me ⟨cache, client, ∅⟩ posts).client = client := run_client _ posts
  unfold Agrees
  rw [hclient]
  constructor
  · intro h c hpos hview
    refine h c _ ?_ hview
    rw [run_announced _ rfl, if_neg hpos.ne']
  · intro h c count hl hview
    rw [run_announced _ rfl] at hl
    split at hl
    · cases hl
    · next hne =>
      simp only [Option.some.injEq] at hl
      rw [← hl]
      exact h c (Nat.pos_of_ne_zero hne) hview

/-- One post by user `2` into channel `5`: the cache counts it for user `1`, the client of user `1` does
not. -/
theorem post_not_counted :
    let db : UnreadDb := ⟨AList.insert 5 9 ∅, AList.insert (5, 1) () (AList.insert (5, 2) () ∅)⟩
    let client : Client.State := ⟨∅, ∅, ∅, ∅, none, none⟩
    let t := run ⟨fun _ => none, fun _ => none, fun _ => "", id⟩ .new db 1 ⟨∅, client, ∅⟩ [⟨5, 2, true⟩]
    t.cache.count 1 5 = 1 ∧ ¬ t.Agrees := by
  intro db client t
  have hclient : t.client = client := run_client _ _
  refine ⟨rfl, fun h => ?_⟩
  unfold Agrees at h
  rw [hclient] at h
  have hcount := h 5 1 rfl (fun h => by cases h)
  cases hcount

end UnreadSync

end Rustchat
