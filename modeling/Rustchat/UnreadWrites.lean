import Rustchat.ThreadAccess
import Rustchat.UnreadOverviews

/-!
# Read positions that other handlers write (`api/v4/channels/view.rs`, `api/v4/channels/unread.rs`, `api/channels.rs`,
`api/v4/posts.rs`, `api/posts.rs`)

Six handlers move a read position or delete a post without a look at the cache of unread counts, and they do not mark
anybody as dirty. `Unreads.exact_iff_spares` says for whom the next overview is right all the same. The events that the
handlers send, and the row of a thread that `set_post_unread` may write, play no part in it.
-/

namespace Rustchat.Unreads

structure World where
  db : Tables
  store : Store

/-- The requests, with `NOW()` in milliseconds. -/
inductive Write
  | viewChannel (userId : Uuid) (channelId prevChannelId : Option Uuid) (now : Int)
  | markChannelAsRead (auth : Uuid) (channelId userId : String) (now : Int)
  | markChannelMemberAsRead (auth channelId : Uuid) (userId : String) (now : Int)
  | markChannelAsUnread (auth : Uuid) (channelId userId : String)
  | setPostUnread (auth : MmAuthUser) (userId postId : String)
  | deletePost (auth : AuthUser) (id : Uuid)
  | deletePostV4 (auth : Uuid) (postId : String)

namespace World

variable (codecs : Codecs) (w : World)

def touchMember (userId channelId : Uuid) (f : ChannelMember → ChannelMember) : World :=
  { w with db := { w.db with members := Assoc.modify (channelId, userId) f w.db.members } }

/-- The upsert of `last_read_message_id`. -/
def writeRead (userId channelId : Uuid) (seq : Option Int) : Except AppError World :=
  (ensure (channelId ∈ w.db.teams) .database).map fun _ =>
    { w with store := { w.store with
        reads := seq.elim (w.store.reads.erase (userId, channelId)) (w.store.reads.insert (userId, channelId)) } }

def ensureMember (userId channelId : Uuid) : Except AppError Unit :=
  ensure ((channelId, userId) ∈ w.db.members) (.forbidden "Not a member of this channel")

def markChannelViewed (userId channelId : Uuid) (now : Int) : Except AppError World :=
  (w.ensureMember userId channelId).bind fun _ =>
    (w.touchMember userId channelId fun m => { m with lastViewedAt := some now, manuallyUnread := false }).writeRead
      userId channelId (some ((w.store.maxSeq channelId true).getD 0))

def viewChannelInternal (userId : Uuid) (channelId prevChannelId : Option Uuid) (now : Int) :
    Except AppError World :=
  (channelId.elim (.ok w) fun channelId => w.markChannelViewed userId channelId now).bind fun w =>
    prevChannelId.elim (.ok w) fun channelId => w.markChannelViewed userId channelId now

def ensureSelf (parse : String → Option Uuid) (auth : Uuid) (userId refusal : String) :
    Except AppError Unit :=
  (okOr (if userId = "me" then some auth else parse userId) (.badRequest "Invalid user_id")).bind fun target =>
    ensure (target = auth) (.forbidden refusal)

def markRead (userId channelId : Uuid) (now : Int) : Except AppError World :=
  (w.ensureMember userId channelId).bind fun _ =>
    (w.touchMember userId channelId fun m => { m with lastViewedAt := some now, manuallyUnread := false }).writeRead
      userId channelId (w.store.maxSeq channelId false)

def markChannelAsRead (auth : Uuid) (channelId userId : String) (now : Int) : Except AppError World :=
  (okOr (parseMmOrUuid codecs.parseUuid channelId) (.badRequest "Invalid channel_id")).bind fun channelId =>
  (ensureSelf (parseMmOrUuid codecs.parseUuid) auth userId "Cannot mark channel as read for other users").bind fun _ =>
    w.markRead auth channelId now

def markChannelMemberAsRead (auth channelId : Uuid) (userId : String) (now : Int) : Except AppError World :=
  (ensureSelf codecs.parseUuid auth userId "Cannot mark channel as read for other users").bind fun _ =>
    w.markRead auth channelId now

/-- `MIN(created_at)` of the undeleted posts -/
def oldestPostTime (channelId : Uuid) : Option Int :=
  ((w.store.posts.filter fun p => p.channelId = channelId ∧ p.deleted = false).map (·.createdAt)).min?

-- without a post the time that is read is null, and an error
def markChannelAsUnread (auth : Uuid) (channelId userId : String) : Except AppError World :=
  (okOr (parseMmOrUuid codecs.parseUuid channelId) (.badRequest "Invalid channel_id")).bind fun channelId =>
  (ensureSelf (parseMmOrUuid codecs.parseUuid) auth userId "Cannot mark channel as unread for other users").bind fun _ =>
  (w.ensureMember auth channelId).bind fun _ =>
  (okOr (w.oldestPostTime channelId) .database).map fun markTime =>
    let w := w.touchMember auth channelId fun m =>
      { m with lastViewedAt := some (timestampMillis markTime), manuallyUnread := true }
    { w with store := { w.store with reads := Assoc.modify (auth, channelId) (fun _ => 0) w.store.reads } }

/-- The user and the undeleted post that is to be the first unread one. -/
def unreadTarget (auth : MmAuthUser) (userId postId : String) : Except AppError (Uuid × PostRow) :=
  ((ThreadDb.threadUser codecs auth userId).mapError fun _ =>
    .forbidden "Cannot access another user's posts").bind fun userId =>
  (okOr (parseMmOrUuid codecs.parseUuid postId) (.badRequest "Invalid post_id")).bind fun postId =>
  (okOr (w.store.posts.find? fun p => p.id = postId ∧ p.deleted = false) .database).bind fun post =>
  (w.ensureMember userId post.channelId).map fun _ => (userId, post)

def positionBefore (post : PostRow) : Int := if 0 < post.seq then post.seq - 1 else 0

def setPostUnread (auth : MmAuthUser) (userId postId : String) : Except AppError World :=
  (w.unreadTarget codecs auth userId postId).bind fun (userId, post) =>
  (w.writeRead userId post.channelId (some (positionBefore post))).bind fun w =>
  (okOr (w.db.usernames.lookup userId) .database).map fun _ =>
    w.touchMember userId post.channelId fun m =>
      { m with lastViewedAt := some (timestampMillis (post.createdAt - 1000)), manuallyUnread := true }

def deletePost (auth : AuthUser) (id : Uuid) : Except AppError World :=
  (okOr (w.store.posts.find? fun p => p.id = id ∧ p.deleted = false) (.notFound "Post not found")).bind fun post =>
  (ensure (auth.canAccessOwned post.userId) (.forbidden "Cannot delete this post")).map fun _ =>
    { w with store := w.store.deletePost id }

def deletePostV4 (auth : Uuid) (postId : String) : Except AppError World :=
  (okOr (parseMmOrUuid codecs.parseUuid postId) (.badRequest "Invalid post_id")).bind fun postId =>
  (okOr (w.store.posts.find? fun p => p.id = postId) (.notFound "Post not found")).bind fun post =>
  (ensure (post.userId = auth) (.forbidden "Cannot delete others' posts")).map fun _ =>
    { w with store := w.store.deletePost postId }

end World

def Write.run (codecs : Codecs) (w : World) : Write → Except AppError World
  | viewChannel userId channelId prevChannelId now => w.viewChannelInternal userId channelId prevChannelId now
  | markChannelAsRead auth channelId userId now => w.markChannelAsRead codecs auth channelId userId now
  | markChannelMemberAsRead auth channelId userId now => w.markChannelMemberAsRead codecs auth channelId userId now
  | markChannelAsUnread auth channelId userId => w.markChannelAsUnread codecs auth channelId userId
  | setPostUnread auth userId postId => w.setPostUnread codecs auth userId postId
  | deletePost auth id => w.deletePost auth id
  | deletePostV4 auth postId => w.deletePostV4 codecs auth postId

def Write.moves (codecs : Codecs) (w : World) (userId channelId : Uuid) : Write → Option Int
  | viewChannel v viewed left _ =>
    if v = userId ∧ (viewed = some channelId ∨ left = some channelId) then
      some ((w.store.maxSeq channelId true).getD 0)
    else none
  | markChannelAsRead auth c _ _ =>
    if auth = userId ∧ parseMmOrUuid codecs.parseUuid c = some channelId then
      some ((w.store.maxSeq channelId false).getD 0)
    else none
  | markChannelMemberAsRead auth c _ _ =>
    if auth = userId ∧ c = channelId then some ((w.store.maxSeq channelId false).getD 0) else none
  | markChannelAsUnread auth c _ =>
    if auth = userId ∧ parseMmOrUuid codecs.parseUuid c = some channelId ∧
      (userId, channelId) ∈ w.store.reads then
      some 0
    else none
  | setPostUnread auth v postId =>
    match w.unreadTarget codecs auth v postId with
    | .ok (target, post) =>
      if target = userId ∧ post.channelId = channelId then some (World.positionBefore post) else none
    | .error _ => none
  | deletePost _ _ | deletePostV4 _ _ => none

def Write.removes (codecs : Codecs) : Write → Option Uuid
  | deletePost _ id => some id
  | deletePostV4 _ postId => parseMmOrUuid codecs.parseUuid postId
  | _ => none

def Store.above (s : Store) (channelId : Uuid) (position : Int) : Int :=
  (s.posts.filter fun p => p.channelId = channelId ∧ p.deleted = false ∧ position < p.seq).length

/-- The write leaves the user as many unread posts in the channel: as many are above the position that it writes as
above the one before, and the post that it deletes is deleted already, read or elsewhere. -/
structure Spares (codecs : Codecs) (w : World) (userId channelId : Uuid) (write : Write) : Prop where
  moved : ∀ position ∈ write.moves codecs w userId channelId,
    w.store.above channelId position = w.store.unreadCount userId channelId
  removed : ∀ id ∈ write.removes codecs, ∀ p ∈ w.store.posts, p.id = id → p.channelId = channelId →
    p.deleted = false → p.seq ≤ w.store.position userId channelId

/-- What is cached is right for all users who are not marked. -/
def Coherent (s : Store) : Prop :=
  ∀ userId, ¬ Marked userId s → ∀ channelId version, Right userId s channelId version

/-- The overview has the number of unread posts for every channel of the user. -/
def Exact (w : World) (userId : Uuid) (overview : UnreadOverview) : Prop :=
  ∀ channelId teamId, (channelId, teamId) ∈ w.db.channelsOf userId →
    overview.countOf channelId = w.store.unreadCount userId channelId

/-! ### The writes -/

section Writes

variable {codecs : Codecs} {w w' : World} {userId channelId : Uuid}

/-- What a write leaves of the world, and what it does to positions and posts. -/
structure Wrote (w w' : World) (moves : Uuid → Uuid → Option Int) (removed : Option Uuid) : Prop where
  db : w'.db = { w.db with members := w'.db.members }
  members : ∀ key, key ∈ w'.db.members ↔ key ∈ w.db.members
  counts : w'.store.counts = w.store.counts
  hashes : w'.store.hashes = w.store.hashes
  dirty : w'.store.dirty = w.store.dirty
  position : ∀ userId channelId, w'.store.position userId channelId =
    (moves userId channelId).getD (w.store.position userId channelId)
  posts : w'.store.posts = removed.elim w.store.posts fun id => (w.store.deletePost id).posts

theorem Wrote.refl (w : World) : Wrote w w (fun _ _ => none) none :=
  ⟨rfl, fun _ => Iff.rfl, rfl, rfl, rfl, fun _ _ => rfl, rfl⟩

theorem Wrote.touchMember {moves : Uuid → Uuid → Option Int} {removed : Option Uuid} (h : Wrote w w' moves removed)
    (f : ChannelMember → ChannelMember) : Wrote w (w'.touchMember userId channelId f) moves removed := by
  refine ⟨?_, fun key => ?_, h.counts, h.hashes, h.dirty, h.position, h.posts⟩
  · unfold World.touchMember
    dsimp only
    rw [h.db]
  · unfold World.touchMember
    dsimp only
    rw [Assoc.mem_modify]
    exact h.members key

theorem wrote_writeRead {w₀ : World} {moves : Uuid → Uuid → Option Int} {seq : Option Int} (h : Wrote w₀ w moves none)
    (hw : w.writeRead userId channelId seq = .ok w') :
    Wrote w₀ w' (fun v c => if v = userId ∧ c = channelId then some (seq.getD 0) else moves v c) none := by
  simp only [World.writeRead, map_eq_ok] at hw
  obtain ⟨_, -, rfl⟩ := hw
  refine ⟨h.db, h.members, h.counts, h.hashes, h.dirty, fun v c => ?_, h.posts⟩
  have hold := h.position v c
  unfold Store.position at hold ⊢
  cases seq with
  | none =>
    dsimp only [Option.elim_none]
    rw [Assoc.lookup_erase_eq]
    by_cases hk : v = userId ∧ c = channelId
    · rw [if_pos (Prod.mk.injEq .. ▸ hk), if_pos hk]
      rfl
    · rw [if_neg (Prod.mk.injEq .. ▸ hk), if_neg hk]
      exact hold
  | some seq =>
    dsimp only [Option.elim_some]
    rw [Assoc.lookup_insert_eq]
    by_cases hk : v = userId ∧ c = channelId
    · rw [if_pos (Prod.mk.injEq .. ▸ hk), if_pos hk]
      rfl
    · rw [if_neg (Prod.mk.injEq .. ▸ hk), if_neg hk]
      exact hold

theorem Wrote.congr {moves moves' : Uuid → Uuid → Option Int} {removed : Option Uuid} (h : Wrote w w' moves removed)
    (hm : ∀ v c, moves v c = moves' v c) : Wrote w w' moves' removed := by
  have heq : moves = moves' := funext fun v => funext fun c => hm v c
  exact heq ▸ h

theorem wrote_viewed {w₀ : World} {moves : Uuid → Uuid → Option Int} {viewed : Option Uuid} {now : Int}
    (h : Wrote w₀ w moves none)
    (hw : viewed.elim (.ok w) (fun channelId => w.markChannelViewed userId channelId now) = .ok w') :
    Wrote w₀ w' (fun v c => if v = userId ∧ viewed = some c then some ((w₀.store.maxSeq c true).getD 0) else moves v c)
      none := by
  cases viewed with
  | none =>
    obtain rfl := Except.ok.inj hw
    exact h.congr fun v c => by simp
  | some channelId =>
    obtain ⟨_, -, hw⟩ := bind_eq_ok.1 hw
    refine (wrote_writeRead (h.touchMember _) hw).congr fun v c => ?_
    have hmax : w.store.maxSeq channelId true = w₀.store.maxSeq channelId true := by
      unfold Store.maxSeq
      rw [h.posts]
      rfl
    rw [hmax]
    by_cases hk : v = userId ∧ c = channelId
    · obtain ⟨rfl, rfl⟩ := hk
      simp
    · rw [if_neg hk, if_neg fun hs => hk ⟨hs.1, (Option.some.inj hs.2).symm⟩]

theorem wrote_markRead {now : Int} (hw : w.markRead userId channelId now = .ok w') : Wrote w w'
    (fun v c => if v = userId ∧ c = channelId then some ((w.store.maxSeq channelId false).getD 0) else none) none := by
  obtain ⟨_, -, hw⟩ := bind_eq_ok.1 hw
  exact wrote_writeRead ((Wrote.refl w).touchMember _) hw

theorem wrote_of_run {write : Write} (hrun : write.run codecs w = .ok w') :
    Wrote w w' (fun userId channelId => write.moves codecs w userId channelId) (write.removes codecs) := by
  cases write with
  | viewChannel userId channelId prevChannelId now =>
    obtain ⟨w₁, hviewed, hleft⟩ := bind_eq_ok.1 hrun
    refine (wrote_viewed (wrote_viewed (Wrote.refl w) hviewed) hleft).congr fun v c => ?_
    dsimp only [Write.moves]
    by_cases hv : v = userId
    · subst hv
      by_cases hleft : prevChannelId = some c
      · simp [hleft]
      · by_cases hviewed : channelId = some c
        · simp [hleft, hviewed]
        · simp [hleft, hviewed]
    · simp [hv, Ne.symm hv]
  | markChannelAsRead auth channelId userId now =>
    obtain ⟨c, hc, hrun⟩ := bind_eq_ok.1 hrun
    obtain ⟨_, -, hrun⟩ := bind_eq_ok.1 hrun
    refine (wrote_markRead hrun).congr fun v d => ?_
    dsimp only [Write.moves]
    rw [okOr_eq_ok.1 hc]
    by_cases hk : v = auth ∧ d = c
    · obtain ⟨rfl, rfl⟩ := hk
      simp
    · rw [if_neg hk, if_neg fun hs => hk ⟨hs.1.symm, (Option.some.inj hs.2).symm⟩]
  | markChannelMemberAsRead auth channelId userId now =>
    obtain ⟨_, -, hrun⟩ := bind_eq_ok.1 hrun
    refine (wrote_markRead hrun).congr fun v d => ?_
    dsimp only [Write.moves]
    by_cases hk : v = auth ∧ d = channelId
    · obtain ⟨rfl, rfl⟩ := hk
      simp
    · rw [if_neg hk, if_neg fun hs => hk ⟨hs.1.symm, hs.2.symm⟩]
  | markChannelAsUnread auth channelId userId =>
    obtain ⟨c, hc, hrun⟩ := bind_eq_ok.1 hrun
    obtain ⟨_, -, hrun⟩ := bind_eq_ok.1 hrun
    obtain ⟨_, -, hrun⟩ := bind_eq_ok.1 hrun
    obtain ⟨markTime, -, rfl⟩ := map_eq_ok.1 hrun
    have htouched : Wrote w (w.touchMember auth c fun m =>
        { m with lastViewedAt := some (timestampMillis markTime), manuallyUnread := true }) (fun _ _ => none) none :=
      (Wrote.refl w).touchMember _
    refine ⟨htouched.db, htouched.members, rfl, rfl, rfl, fun v d => ?_, rfl⟩
    have hmodify : ((Assoc.modify (auth, c) (fun _ => (0 : Int)) w.store.reads).lookup (v, d)).getD 0 =
        (if auth = v ∧ some c = some d ∧ (v, d) ∈ w.store.reads then some 0 else none).getD
          (w.store.position v d) := by
      rw [Assoc.lookup_modify]
      unfold Store.position
      by_cases hk : v = auth ∧ d = c
      · obtain ⟨rfl, rfl⟩ := hk
        by_cases hmem : (v, d) ∈ w.store.reads
        · obtain ⟨n, hn⟩ := Option.isSome_iff_exists.1 (AList.lookup_isSome.2 hmem)
          rw [if_pos rfl, if_pos ⟨rfl, rfl, hmem⟩, hn]
          rfl
        · rw [if_pos rfl, if_neg fun hs => hmem hs.2.2, AList.lookup_eq_none.2 hmem]
          rfl
      · rw [if_neg (Prod.mk.injEq .. ▸ hk), if_neg fun hs => hk ⟨hs.1.symm, (Option.some.inj hs.2.1).symm⟩]
        rfl
    dsimp only [Write.moves]
    rw [okOr_eq_ok.1 hc]
    exact hmodify
  | setPostUnread auth userId postId =>
    obtain ⟨⟨target, post⟩, htarget, hrun⟩ := bind_eq_ok.1 hrun
    obtain ⟨w₁, hwrite, hrun⟩ := bind_eq_ok.1 hrun
    obtain ⟨_, -, rfl⟩ := map_eq_ok.1 hrun
    refine ((wrote_writeRead (Wrote.refl w) hwrite).touchMember _).congr fun v d => ?_
    dsimp only [Write.moves]
    rw [htarget]
    by_cases hk : v = target ∧ d = post.channelId
    · obtain ⟨rfl, rfl⟩ := hk
      simp
    · rw [if_neg hk]
      exact (if_neg fun hs => hk ⟨hs.1.symm, hs.2.symm⟩).symm
  | deletePost auth id =>
    obtain ⟨post, -, hrun⟩ := bind_eq_ok.1 hrun
    obtain ⟨_, -, rfl⟩ := map_eq_ok.1 hrun
    exact ⟨rfl, fun _ => Iff.rfl, rfl, rfl, rfl, fun _ _ => rfl, rfl⟩
  | deletePostV4 auth postId =>
    obtain ⟨id, hid, hrun⟩ := bind_eq_ok.1 hrun
    obtain ⟨post, -, hrun⟩ := bind_eq_ok.1 hrun
    obtain ⟨_, -, rfl⟩ := map_eq_ok.1 hrun
    refine ⟨rfl, fun _ => Iff.rfl, rfl, rfl, rfl, fun _ _ => rfl, ?_⟩
    dsimp only [Write.removes]
    rw [okOr_eq_ok.1 hid]
    rfl

theorem unreadCount_deletePost_iff {s : Store} {id : Uuid} :
    (s.deletePost id).unreadCount userId channelId = s.unreadCount userId channelId ↔
      ∀ p ∈ s.posts, p.id = id → p.channelId = channelId → p.deleted = false →
        p.seq ≤ s.position userId channelId := by
  let unread (p : PostRow) : Bool :=
    decide (p.channelId = channelId ∧ p.deleted = false ∧ s.position userId channelId < p.seq)
  let mark (p : PostRow) : PostRow := if p.id = id then { p with deleted := true } else p
  have hmark : ∀ p, unread (mark p) = true ↔ unread p = true ∧ p.id ≠ id := by
    intro p
    by_cases hid : p.id = id
    · simp [mark, unread, hid]
    · simp [mark, hid]
  have hafter : (s.deletePost id).unreadCount userId channelId = ((s.posts.filter fun p => unread (mark p)).length : ℕ) := by
    have hposts : (s.deletePost id).unreadPosts userId channelId = (s.posts.map mark).filter unread := rfl
    unfold Store.unreadCount
    rw [hposts, List.filter_map, List.length_map]
    rfl
  have hbefore : s.unreadCount userId channelId = ((s.posts.filter unread).length : ℕ) := rfl
  rw [hafter, hbefore, Int.natCast_inj]
  constructor
  · intro hlen p hp hid hc hd
    have heq : (s.posts.filter fun p => unread (mark p)) = s.posts.filter unread :=
      filter_eq_of_length (.inl fun p hp => ((hmark p).1 hp).1) hlen
    by_contra hseq
    have hmem : p ∈ s.posts.filter unread := List.mem_filter.2 ⟨hp, decide_eq_true ⟨hc, hd, by omega⟩⟩
    rw [← heq, List.mem_filter, hmark] at hmem
    exact hmem.2.2 hid
  · intro h
    congr 1
    refine List.filter_congr fun p hp => Bool.eq_iff_iff.2 ((hmark p).trans (and_iff_left_of_imp fun hu hid => ?_))
    obtain ⟨hc, hd, hseq⟩ := of_decide_eq_true hu
    have hle := h p hp hid hc hd
    omega

theorem moves_of_removes {write : Write} {id : Uuid} (h : write.removes codecs = some id) :
    write.moves codecs w userId channelId = none := by
  cases write with
  | deletePost auth id => rfl
  | deletePostV4 auth postId => rfl
  | viewChannel | markChannelAsRead | markChannelMemberAsRead | markChannelAsUnread | setPostUnread => cases h

theorem unreadCount_iff_spares {write : Write} (hrun : write.run codecs w = .ok w') :
    w'.store.unreadCount userId channelId = w.store.unreadCount userId channelId ↔
      Spares codecs w userId channelId write := by
  have hwrote := wrote_of_run hrun
  have hposition := hwrote.position userId channelId
  have hposts := hwrote.posts
  cases hremoves : write.removes codecs with
  | none =>
    rw [hremoves] at hposts
    have habove : w'.store.unreadCount userId channelId = w.store.above channelId
        ((write.moves codecs w userId channelId).getD (w.store.position userId channelId)) := by
      unfold Store.unreadCount Store.unreadPosts Store.above
      rw [hposition, hposts]
      rfl
    rw [habove]
    have hremoved : ∀ id ∈ write.removes codecs, ∀ p ∈ w.store.posts, p.id = id → p.channelId = channelId →
        p.deleted = false → p.seq ≤ w.store.position userId channelId := by
      intro id hid
      rw [hremoves] at hid
      cases hid
    cases hmoves : write.moves codecs w userId channelId with
    | none =>
      refine iff_of_true rfl ⟨fun position hp => ?_, hremoved⟩
      rw [hmoves] at hp
      cases hp
    | some position =>
      constructor
      · intro h
        refine ⟨fun position' hp => ?_, hremoved⟩
        obtain rfl := Option.some.inj (hmoves.symm.trans hp)
        exact h
      · exact fun h => h.moved position hmoves
  | some id =>
    have hmoves : write.moves codecs w userId channelId = none := moves_of_removes hremoves
    rw [hremoves] at hposts
    rw [hmoves] at hposition
    have hdeleted : w'.store.unreadCount userId channelId = (w.store.deletePost id).unreadCount userId channelId := by
      unfold Store.unreadCount Store.unreadPosts
      rw [hposition, hposts]
      rfl
    rw [hdeleted, unreadCount_deletePost_iff]
    constructor
    · intro h
      refine ⟨fun position hp => ?_, fun id' hid => ?_⟩
      · rw [hmoves] at hp
        cases hp
      · obtain rfl := Option.some.inj (hremoves.symm.trans hid)
        exact h
    · exact fun h => h.removed id hremoves

/-! ### The overview after the write -/

theorem unreadCount_nonneg {s : Store} : 0 ≤ s.unreadCount userId channelId := Int.natCast_nonneg _

theorem served_right {s : Store} {config : UnreadConfig} {n : Int} (hright : ∀ version, Right userId s channelId version)
    (h : s.served config userId channelId = some n) : n = s.unreadCount userId channelId := by
  unfold Store.served at h
  dsimp only at h
  split at h
  · obtain ⟨tuple, htuple, h⟩ := Option.bind_eq_some_iff.1 h
    split at h
    · cases h
    · exact hright .second n (Option.map_eq_some_iff.2 ⟨tuple, htuple, Option.some.inj h⟩)
  · exact hright .first n h

theorem Wrote.mem_channelsOf {moves : Uuid → Uuid → Option Int} {removed : Option Uuid} {teamId : Uuid}
    (h : Wrote w w' moves removed) :
    (channelId, teamId) ∈ w'.db.channelsOf userId ↔ (channelId, teamId) ∈ w.db.channelsOf userId := by
  have hteams : w'.db.teams = w.db.teams := by rw [h.db]
  rw [Unreads.mem_channelsOf, Unreads.mem_channelsOf, h.members, hteams]

theorem Wrote.served {moves : Uuid → Uuid → Option Int} {removed : Option Uuid} (h : Wrote w w' moves removed) :
    w'.store.served w'.db.config userId channelId = w.store.served w.db.config userId channelId := by
  have hconfig : w'.db.config = w.db.config := by rw [h.db]
  unfold Store.served Store.cachedChannel Store.hash
  rw [hconfig, h.counts, h.hashes]

theorem countOf_unmarked {pick order : List Uuid → List Uuid} {overview : UnreadOverview} {teamId : Uuid}
    (hpick : ∀ users userId, userId ∈ pick users ↔ userId ∈ users) (hunmarked : ¬ Marked userId w.store)
    (hcount : overview.countOf channelId =
      max ((reconcileDirtyUsersOnce w.db pick order w.store).overviewCount w.db userId channelId) 0)
    (hmem : (channelId, teamId) ∈ w.db.channelsOf userId) : overview.countOf channelId =
      max ((w.store.served w.db.config userId channelId).getD (w.store.unreadCount userId channelId)) 0 := by
  have husers : userId ∉ pick w.store.dirty.keys :=
    fun h => hunmarked (AList.mem_keys.1 ((hpick _ _).1 h))
  have hkeeps : Keeps (fun key => key.owner = userId) w.store (reconcileDirtyUsersOnce w.db pick order w.store) := by
    rw [reconcileDirtyUsersOnce_eq]
    exact keeps_foldl_sync husers
  rw [hcount, hkeeps.overviewCount rfl, Store.overviewCount,
    msgCount_channelFromDb (Unreads.mem_channelsOf.1 hmem).1]

theorem countOf_marked {pick order : List Uuid → List Uuid} {overview : UnreadOverview} {teamId : Uuid}
    (hpick : ∀ users userId, userId ∈ pick users ↔ userId ∈ users) (hmarked : Marked userId w.store)
    (hcount : overview.countOf channelId =
      max ((reconcileDirtyUsersOnce w.db pick order w.store).overviewCount w.db userId channelId) 0)
    (hmem : (channelId, teamId) ∈ w.db.channelsOf userId) :
    overview.countOf channelId = w.store.unreadCount userId channelId := by
  let s := reconcileDirtyUsersOnce w.db pick order w.store
  have hkeeps : Keeps (fun _ => False) w.store s := by
    unfold s
    rw [reconcileDirtyUsersOnce_eq]
    exact Keeps.foldl (fun v _ s => keeps_sync.mono fun _ h => h.elim) _
  have hserved : Served w.db userId channelId s := by
    unfold s
    rw [reconcileDirtyUsersOnce_eq]
    exact served_foldl_sync hmem (.inl ((hpick _ _).2 (AList.mem_keys.2 hmarked)))
  have hright : s.overviewCount w.db userId channelId = s.unreadCount userId channelId := by
    unfold Store.overviewCount
    cases hs : s.served w.db.config userId channelId with
    | none => exact msgCount_channelFromDb (Unreads.mem_channelsOf.1 hmem).1
    | some n => exact hserved n hs
  rw [hcount, hright, max_eq_left unreadCount_nonneg, hkeeps.unreadCount]

end Writes

/-- After a write and a pass over the dirty users, the overview is exact for a user if and only if the user was marked, or
the write leaves as many unread posts in every channel of the user whose count is taken from the cache. -/
theorem exact_iff_spares {codecs : Codecs} {w w' : World} {write : Write} (hcoherent : Coherent w.store)
    (hrun : write.run codecs w = .ok w') {pick : List Uuid → List Uuid}
    (hpick : ∀ users userId, userId ∈ pick users ↔ userId ∈ users) (order : List Uuid → List Uuid)
    (userId : Uuid) :
    ∃ overview, answer w'.db (reconcileDirtyUsersOnce w'.db pick order w'.store)
        (getUnreadOverview w'.db.config userId) = .ok overview ∧
      (Exact w' userId overview ↔ Marked userId w.store ∨
        ∀ channelId teamId, (channelId, teamId) ∈ w.db.channelsOf userId →
          (w.store.served w.db.config userId channelId).isSome → Spares codecs w userId channelId write) := by
  have hwrote := wrote_of_run hrun
  have hmarks : Marked userId w'.store ↔ Marked userId w.store := by
    unfold Marked
    rw [hwrote.dirty]
  obtain ⟨overview, hanswer, hcounts⟩ := answer_getUnreadOverview w'.db
    (reconcileDirtyUsersOnce w'.db pick order w'.store) userId
  refine ⟨overview, hanswer, ?_⟩
  by_cases hmarked : Marked userId w.store
  · refine iff_of_true (fun channelId teamId hmem => ?_) (.inl hmarked)
    exact countOf_marked hpick (hmarks.2 hmarked) (hcounts channelId teamId hmem) hmem
  · rw [or_iff_right hmarked]
    unfold Exact
    refine forall_congr' fun channelId => forall_congr' fun teamId => ?_
    rw [← hwrote.mem_channelsOf]
    refine forall_congr' fun hmem => ?_
    have hcount := countOf_unmarked hpick (fun h => hmarked (hmarks.1 h)) (hcounts channelId teamId hmem) hmem
    rw [hwrote.served] at hcount
    rw [hcount]
    cases hserved : w.store.served w.db.config userId channelId with
    | none =>
      -- the count is computed
      exact iff_of_true (max_eq_left unreadCount_nonneg) fun h => (by cases h)
    | some n =>
      have hn : n = w.store.unreadCount userId channelId :=
        served_right (hcoherent userId hmarked channelId) hserved
      rw [Option.getD_some, hn, max_eq_left unreadCount_nonneg, eq_comm, unreadCount_iff_spares hrun]
      exact ⟨fun h _ => h, fun h => h rfl⟩

/-- The count of user `1` is cached in both versions. -/
def servedPair : Store :=
  { unreadPair with hashes := AList.insert (.channel 1 5) (AList.insert "msg_count" 1 ∅) ∅ }

theorem coherent_servedPair : Coherent servedPair := by
  intro userId _ channelId version n hn
  by_cases hkey : CountKey.channel userId channelId = .channel 1 5
  · obtain ⟨rfl, rfl⟩ := CountKey.channel.inj hkey
    revert n
    cases version <;> decide +kernel
  · have hcount : servedPair.counts.lookup (.channel userId channelId) = none :=
      Assoc.lookup_insert_eq.trans (if_neg hkey)
    have hhash : servedPair.hash (.channel userId channelId) = ∅ :=
      congrArg (Option.getD · ∅) (Assoc.lookup_insert_eq.trans (if_neg hkey))
    cases version with
    | first => cases hcount.symm.trans hn
    | second =>
      have hnone : servedPair.cachedCount userId channelId .second = none := by
        unfold Store.cachedCount Store.cachedChannel
        rw [hhash]
        rfl
      cases hnone.symm.trans hn

def noCodecs : Codecs := ⟨fun _ => none, fun _ => none, fun _ => "", id⟩

/-- User `1` views the channel, and the overview still has the post. -/
theorem viewed_not_exact : Coherent servedPair ∧
    ∃ w', (Write.viewChannel 1 (some 5) none 20).run noCodecs ⟨pair, servedPair⟩ = .ok w' ∧
      ∃ overview, answer w'.db (reconcileDirtyUsersOnce w'.db id id w'.store) (getUnreadOverview w'.db.config 1) =
        .ok overview ∧ ¬ Exact w' 1 overview := by
  refine ⟨coherent_servedPair, _, rfl, ?_⟩
  obtain ⟨overview, hanswer, hcounts⟩ := answer_getUnreadOverview _ _ 1
  refine ⟨overview, hanswer, fun hexact => ?_⟩
  have hunread := hexact 5 9 (by decide +kernel)
  have hcount := hcounts 5 9 (by decide +kernel)
  rw [hcount] at hunread
  revert hunread
  decide +kernel

/-- User `2`, who wrote the post, has read it, and has its count cached too. -/
def readByBob : Store :=
  { servedPair with
    reads := AList.insert (2, 5) 10 ∅
    counts := AList.insert (.channel 2 5) 0 servedPair.counts
    hashes := AList.insert (.channel 2 5) (AList.insert "msg_count" 0 ∅) servedPair.hashes }

theorem coherent_readByBob : Coherent readByBob := by
  intro userId _ channelId version n hn
  by_cases hbob : CountKey.channel userId channelId = .channel 2 5
  · obtain ⟨rfl, rfl⟩ := CountKey.channel.inj hbob
    revert n
    cases version <;> decide +kernel
  by_cases hann : CountKey.channel userId channelId = .channel 1 5
  · obtain ⟨rfl, rfl⟩ := CountKey.channel.inj hann
    revert n
    cases version <;> decide +kernel
  have hcount : readByBob.counts.lookup (.channel userId channelId) = none :=
    (AList.lookup_insert_ne hbob).trans (AList.lookup_insert_ne hann)
  have hhash : readByBob.hash (.channel userId channelId) = ∅ :=
    congrArg (Option.getD · ∅) ((AList.lookup_insert_ne hbob).trans (AList.lookup_insert_ne hann))
  cases version with
  | first => cases hcount.symm.trans hn
  | second =>
    have hnone : readByBob.cachedCount userId channelId .second = none := by
      unfold Store.cachedCount Store.cachedChannel
      rw [hhash]
      rfl
    cases hnone.symm.trans hn

/-- User `2` views the channel again: the position is written once more, and the overview stays right. -/
theorem viewed_exact : ∃ w', (Write.viewChannel 2 (some 5) none 20).run noCodecs ⟨pair, readByBob⟩ = .ok w' ∧
    ∃ overview, answer w'.db (reconcileDirtyUsersOnce w'.db id id w'.store) (getUnreadOverview w'.db.config 2) =
      .ok overview ∧ Exact w' 2 overview := by
  have hchannels : pair.channelsOf 2 = [(5, 9)] := by decide +kernel
  refine ⟨_, rfl, ?_⟩
  obtain ⟨overview, hanswer, hexact⟩ := @exact_iff_spares noCodecs ⟨pair, readByBob⟩ _ (.viewChannel 2 (some 5) none 20)
    coherent_readByBob rfl id (fun _ _ => Iff.rfl) id 2
  refine ⟨overview, hanswer, hexact.2 (.inr fun channelId teamId hmem _ => ⟨fun position hp => ?_, fun id hid => ?_⟩)⟩
  · rw [hchannels, List.mem_singleton] at hmem
    obtain ⟨rfl, -⟩ := Prod.ext_iff.1 hmem
    obtain rfl : 10 = position := Option.some.inj hp
    decide +kernel
  · cases hid

end Rustchat.Unreads
