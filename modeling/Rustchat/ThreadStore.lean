import Rustchat.Lib.Assoc
import Rustchat.Lib.Run

/-!
# The open thread (`features/messages/stores/threadStore.ts`)

The store has one slot for the thread that is shown. Answers come after any number of other steps, and
write into the slot whatever thread it then has. `ThreadPane.coherent_of_fits` says which steps keep what
is shown the thread's own. Drafts are left out.
-/

namespace Rustchat

namespace ThreadStore

structure Post where
  id : String
  channelId : String
  rootPostId : Option String
  replyCount : Int
deriving DecidableEq

structure ThreadResponse where
  order : List String
  posts : Assoc String Post
  nextCursor : Option String

/-- A response to a request for the thread of `postId`: the post itself and replies to it (`get_thread`). -/
def ThreadResponse.ofThread (response : ThreadResponse) (postId : String) : Prop :=
  response.order.Nodup ∧ postId ∈ response.posts ∧
    ∀ e ∈ response.posts.entries, e.2.id = e.1 ∧ (e.1 = postId ∨ e.2.rootPostId = some postId)

instance (response : ThreadResponse) (postId : String) : Decidable (response.ofThread postId) :=
  inferInstanceAs (Decidable (_ ∧ _ ∧ _))

/-- The posts of a response, in order, without the post `parent`. -/
def ThreadResponse.replies (response : ThreadResponse) (parent : Option String) : List Post :=
  (response.order.filter fun id => some id ≠ parent).filterMap fun id => response.posts.lookup id

structure ThreadState where
  isOpen : Bool
  parentPostId : Option String
  parentPost : Option Post
  replies : List Post
  hasMore : Bool
  cursor : Option String
  isLoading : Bool
  isSending : Bool

/-- The truth value of a text or `null`. -/
def truthy (o : Option String) : Bool := o.any (· ≠ "")

namespace ThreadState

def init : ThreadState := ⟨false, none, none, [], false, none, false, false⟩

def closeThread (s : ThreadState) : ThreadState :=
  { s with isOpen := false, parentPostId := none, parentPost := none, replies := [], hasMore := false, cursor := none }

/-- `openThread` up to its request. -/
def openThread (s : ThreadState) (postId : String) : ThreadState :=
  { s with isOpen := true, parentPostId := some postId, isLoading := true, replies := [] }

/-- `openThread` from its answer on. -/
def openAnswered (s : ThreadState) (postId : String) (response : ThreadResponse) : ThreadState :=
  { s with
    parentPost := response.posts.lookup postId
    replies := response.replies (some postId)
    cursor := response.nextCursor.filter (· ≠ "")
    hasMore := truthy response.nextCursor
    isLoading := false }

def openFailed (s : ThreadState) : ThreadState := { s.closeThread with isLoading := false }

/-- `loadMoreReplies` from its answer on. -/
def moreAnswered (s : ThreadState) (response : ThreadResponse) : ThreadState :=
  { s with
    replies := s.replies ++ response.replies s.parentPostId
    cursor := response.nextCursor.filter (· ≠ "")
    hasMore := truthy response.nextCursor
    isLoading := false }

def countReply (s : ThreadState) : ThreadState :=
  { s with parentPost := s.parentPost.map fun p => { p with replyCount := p.replyCount + 1 } }

/-- `sendReply` from its answer on. -/
def replyAnswered (s : ThreadState) (reply : Post) : ThreadState :=
  { countReply { s with replies := s.replies ++ [reply] } with isSending := false }

def onNewReply (s : ThreadState) (post : Post) : ThreadState :=
  if s.replies.any fun r => r.id = post.id then s else countReply { s with replies := s.replies ++ [post] }

def removeReply (s : ThreadState) (postId : String) : ThreadState :=
  if s.replies.any fun r => r.id = postId then
    { s with
      replies := s.replies.eraseP fun r => r.id = postId
      parentPost := s.parentPost.map fun p => { p with replyCount := max 0 (p.replyCount - 1) } }
  else s

def onPostDeleted (s : ThreadState) (postId : String) : ThreadState :=
  if s.parentPostId = some postId then (s.removeReply postId).closeThread else s.removeReply postId

/-- What is shown belongs to one thread. -/
structure Coherent (s : ThreadState) : Prop where
  replies (r : Post) (hr : r ∈ s.replies) : ∃ postId, s.parentPostId = some postId ∧
    r.rootPostId = some postId
  nodup : (s.replies.map Post.id).Nodup
  parent (p : Post) (hp : s.parentPost = some p) : s.parentPostId = some p.id

/-- Posts that can be added to the replies: replies of the open thread, each once and none that is there. -/
def Fresh (s : ThreadState) (posts : List Post) : Prop :=
  (∀ r ∈ posts, ∃ postId, s.parentPostId = some postId ∧ r.rootPostId = some postId) ∧
    (posts.map Post.id).Nodup ∧ ∀ r ∈ posts, r.id ∉ s.replies.map Post.id

variable {s s' : ThreadState} {response : ThreadResponse} {postId : String} {posts : List Post}
    {post r : Post}

theorem Coherent.congr (hid : s'.parentPostId = s.parentPostId)
    (hparent : s'.parentPost.map Post.id = s.parentPost.map Post.id) (hreplies : s'.replies = s.replies)
    (h : s.Coherent) : s'.Coherent where
  replies r hr := by
    rw [hid]
    exact h.replies r (hreplies ▸ hr)
  nodup := hreplies ▸ h.nodup
  parent p hp := by
    have hmap : s.parentPost.map Post.id = some p.id := by rw [← hparent, hp]; rfl
    obtain ⟨q, hq, hqp⟩ := Option.map_eq_some_iff.1 hmap
    rw [hid, ← hqp]
    exact h.parent q hq

theorem coherent_closeThread : s.closeThread.Coherent := by
  constructor <;> simp [closeThread]

theorem coherent_push (h : s.Coherent) (hf : s.Fresh posts) :
    Coherent { s with replies := s.replies ++ posts } where
  replies r hr := by
    rcases List.mem_append.1 hr with hr | hr
    · exact h.replies r hr
    · exact hf.1 r hr
  nodup := by
    rw [List.map_append, List.nodup_append']
    refine ⟨h.nodup, hf.2.1, fun id hid hnew => ?_⟩
    obtain ⟨r, hr, rfl⟩ := List.mem_map.1 hnew
    exact hf.2.2 r hr hid
  parent := h.parent

theorem fresh_of_coherent_push (h : Coherent { s with replies := s.replies ++ posts }) : s.Fresh posts := by
  have hnodup := h.nodup
  rw [List.map_append, List.nodup_append'] at hnodup
  obtain ⟨-, hnodup, hdisj⟩ := hnodup
  exact ⟨fun r hr => h.replies r (List.mem_append_right _ hr), hnodup,
    fun r hr hheld => hdisj hheld (List.mem_map_of_mem hr)⟩

theorem lookup_ofThread (h : response.ofThread postId) {id : String} (hl : response.posts.lookup id = some post) :
    post.id = id ∧ (id = postId ∨ post.rootPostId = some postId) :=
  h.2.2 _ (Assoc.mem_entries_iff.2 hl)

theorem coherent_openAnswered (h : response.ofThread postId) :
    (s.openAnswered postId response).Coherent ↔ s.parentPostId = some postId := by
  obtain ⟨root, hroot⟩ := Option.isSome_iff_exists.1 (AList.lookup_isSome.2 h.2.1)
  have hid := (lookup_ofThread h hroot).1
  constructor
  · intro hc
    have hp := hc.parent root hroot
    rwa [hid] at hp
  · intro hopen
    refine ⟨fun r hr => ⟨postId, hopen, ?_⟩, ?_, fun p hp => ?_⟩
    · obtain ⟨id, hmem, hl⟩ := List.mem_filterMap.1 hr
      have hne : some id ≠ some postId := by simpa using (List.mem_filter.1 hmem).2
      exact (lookup_ofThread h hl).2.resolve_left fun heq => hne (heq ▸ rfl)
    · rw [openAnswered, ThreadResponse.replies, List.map_filterMap]
      refine List.Nodup.filterMap ?_ (h.1.filter _)
      intro a b id ha hb
      obtain ⟨pa, hla, rfl⟩ := Option.map_eq_some_iff.1 ha
      obtain ⟨pb, hlb, hab⟩ := Option.map_eq_some_iff.1 hb
      rw [← (lookup_ofThread h hla).1, ← hab, (lookup_ofThread h hlb).1]
    · obtain rfl : root = p := Option.some.inj (hroot.symm.trans hp)
      rw [hid]
      exact hopen

theorem coherent_countReply : (countReply s).Coherent ↔ s.Coherent := by
  have hid : (countReply s).parentPost.map Post.id = s.parentPost.map Post.id := by
    rw [countReply, Option.map_map]
    rfl
  exact ⟨Coherent.congr rfl hid.symm rfl, Coherent.congr rfl hid rfl⟩

theorem coherent_moreAnswered : (s.moreAnswered response).Coherent ↔
    Coherent { s with replies := s.replies ++ response.replies s.parentPostId } :=
  ⟨Coherent.congr rfl rfl rfl, Coherent.congr rfl rfl rfl⟩

theorem coherent_replyAnswered :
    (s.replyAnswered post).Coherent ↔ Coherent { s with replies := s.replies ++ [post] } := by
  refine Iff.trans ?_ (coherent_countReply (s := { s with replies := s.replies ++ [post] }))
  exact ⟨Coherent.congr rfl rfl rfl, Coherent.congr rfl rfl rfl⟩

theorem onNewReply_of_held (h : post.id ∈ s.replies.map Post.id) : s.onNewReply post = s := by
  obtain ⟨r, hr, hid⟩ := List.mem_map.1 h
  rw [onNewReply, if_pos (List.any_eq_true.2 ⟨r, hr, by simpa using hid⟩)]

theorem onNewReply_of_not_held (h : post.id ∉ s.replies.map Post.id) :
    s.onNewReply post = countReply { s with replies := s.replies ++ [post] } := by
  rw [onNewReply, if_neg]
  intro hany
  obtain ⟨r, hr, hid⟩ := List.any_eq_true.1 hany
  exact h (List.mem_map.2 ⟨r, hr, by simpa using hid⟩)

theorem coherent_removeReply (h : s.Coherent) : (s.removeReply postId).Coherent := by
  rw [removeReply]
  split
  · refine ⟨fun r hr => h.replies r (List.mem_of_mem_eraseP hr), ?_, fun p hp => ?_⟩
    · exact h.nodup.sublist (List.eraseP_sublist.map _)
    · obtain ⟨q, hq, rfl⟩ := Option.map_eq_some_iff.1 hp
      exact h.parent q hq
  · exact h

theorem parentPostId_removeReply : (s.removeReply postId).parentPostId = s.parentPostId := by
  rw [removeReply]
  split <;> rfl

end ThreadState

/-! ### Requests in flight -/

/-- A request of `openThread`, of `loadMoreReplies` or of `sendReply`, with the thread it was made for. -/
inductive ThreadRequest
  | load (postId : String)
  | more (postId : String)
  | reply (rootId : String)
deriving DecidableEq

end ThreadStore

open ThreadStore ThreadStore.ThreadState

structure ThreadPane where
  pane : ThreadState
  requests : List ThreadRequest

inductive ThreadInput
  | openThread (postId : String)
  | closeThread
  | loadMoreReplies
  | sendReply
  | answered (n : ℕ) (response : ThreadResponse)
  | sent (n : ℕ) (reply : Post)
  | failed (n : ℕ)
  | onNewReply (post : Post)
  | onPostDeleted (postId : String)

namespace ThreadPane

def init : ThreadPane := ⟨.init, []⟩

/-- Any request can be the next that is answered or fails, and an answer is one to its request. -/
def step (s : ThreadPane) : ThreadInput → Option ThreadPane
  | .openThread postId =>
    if s.pane.parentPostId = some postId ∧ s.pane.isOpen then some s
    else some ⟨s.pane.openThread postId, s.requests ++ [.load postId]⟩
  | .closeThread => some { s with pane := s.pane.closeThread }
  | .loadMoreReplies =>
    match s.pane.parentPostId with
    | some postId =>
      if postId = "" ∨ ¬ truthy s.pane.cursor ∨ s.pane.isLoading then some s
      else some ⟨{ s.pane with isLoading := true }, s.requests ++ [.more postId]⟩
    | none => some s
  | .sendReply =>
    match s.pane.parentPostId with
    | some postId =>
      if postId = "" ∨ s.pane.parentPost.isNone ∨ s.pane.isSending then some s
      else some ⟨{ s.pane with isSending := true }, s.requests ++ [.reply postId]⟩
    | none => some s
  | .answered n response =>
    match s.requests[n]? with
    | some (.load postId) =>
      if response.ofThread postId then some ⟨s.pane.openAnswered postId response,
        s.requests.eraseIdx n⟩ else none
    | some (.more postId) =>
      if response.ofThread postId then some ⟨s.pane.moreAnswered response, s.requests.eraseIdx n⟩ else none
    | _ => none
  | .sent n reply =>
    match s.requests[n]? with
    | some (.reply rootId) =>
      if reply.rootPostId = some rootId then some ⟨s.pane.replyAnswered reply,
        s.requests.eraseIdx n⟩ else none
    | _ => none
  | .failed n =>
    match s.requests[n]? with
    | some (.load _) => some ⟨s.pane.openFailed, s.requests.eraseIdx n⟩
    | some (.more _) => some ⟨{ s.pane with isLoading := false }, s.requests.eraseIdx n⟩
    | some (.reply _) => some ⟨{ s.pane with isSending := false }, s.requests.eraseIdx n⟩
    | none => none
  | .onNewReply post => some { s with pane := s.pane.onNewReply post }
  | .onPostDeleted postId => some { s with pane := s.pane.onPostDeleted postId }

def Quiet (s : ThreadPane) : Prop := s.requests = []

/-- A request of `openThread` for the open thread is among `requests`: its answer or failure sets all anew. -/
def Awaited (s : ThreadPane) (requests : List ThreadRequest) : Prop :=
  ∃ postId, s.pane.parentPostId = some postId ∧ .load postId ∈ requests

/-- The condition on a step: what it adds to the replies are replies of the open thread that are not
there, and what it puts there as a whole is the open thread; or a request of `openThread` for the open
thread is still to be answered. -/
def Fits (s : ThreadPane) : ThreadInput → Prop
  | .answered n response =>
    match s.requests[n]? with
    | some (.load postId) => s.pane.parentPostId = some postId ∨ s.Awaited (s.requests.eraseIdx n)
    | some (.more _) => s.pane.Fresh (response.replies s.pane.parentPostId) ∨
      s.Awaited (s.requests.eraseIdx n)
    | _ => True
  | .sent n reply => s.pane.Fresh [reply] ∨ s.Awaited (s.requests.eraseIdx n)
  | .onNewReply post => s.pane.Fresh [post] ∨ post.id ∈ s.pane.replies.map Post.id ∨ s.Awaited s.requests
  | _ => True

/-- What holds in all states: the open thread is what is shown, or will be loaded. -/
def Kept (s : ThreadPane) : Prop := s.Awaited s.requests ∨ s.pane.Coherent

variable {s s' : ThreadPane} {input : ThreadInput}

theorem Awaited.of_eraseIdx {n : ℕ} (h : s.Awaited (s.requests.eraseIdx n)) : s.Awaited s.requests := by
  obtain ⟨postId, hid, hmem⟩ := h
  exact ⟨postId, hid, List.mem_of_mem_eraseIdx hmem⟩

theorem load_mem_eraseIdx {n : ℕ} {request : ThreadRequest} {postId : String} (hn : s.requests[n]? = some request)
    (hother : request ≠ .load postId) (hmem : .load postId ∈ s.requests) :
    .load postId ∈ s.requests.eraseIdx n := by
  obtain ⟨i, hi⟩ := List.mem_iff_getElem?.1 hmem
  refine List.mem_eraseIdx_iff_getElem?.2 ⟨i, ?_, hi⟩
  rintro rfl
  exact hother (Option.some.inj (hn.symm.trans hi))

theorem Kept.of_same (h : s.Kept) (hrequests : ∀ postId, .load postId ∈ s.requests → .load postId ∈ s'.requests)
    (hid : s'.pane.parentPostId = s.pane.parentPostId)
    (hparent : s'.pane.parentPost.map Post.id = s.pane.parentPost.map Post.id)
    (hreplies : s'.pane.replies = s.pane.replies) : s'.Kept := by
  rcases h with ⟨postId, hopen, hmem⟩ | hc
  · exact .inl ⟨postId, hid.trans hopen, hrequests postId hmem⟩
  · exact .inr (hc.congr hid hparent hreplies)

theorem Kept.answered {n : ℕ} {response : ThreadResponse} (h : s.Kept) (hfits : s.Fits (.answered n response))
    (hs : step s (.answered n response) = some s') : s'.Kept := by
  simp only [ThreadPane.step] at hs
  simp only [Fits] at hfits
  split at hs
  · rename_i postId hn
    rw [hn] at hfits
    split at hs
    · rename_i hthread
      cases hs
      rcases hfits with hopen | hawaited
      · exact .inr ((coherent_openAnswered hthread).2 hopen)
      · exact .inl hawaited
    · cases hs
  · rename_i postId hn
    rw [hn] at hfits
    split at hs
    · cases hs
      rcases hfits with hfresh | hawaited
      · rcases h with hawaited | hc
        · exact .inl (hawaited.imp fun _ ha => ⟨ha.1, load_mem_eraseIdx hn nofun ha.2⟩)
        · exact .inr (coherent_moreAnswered.2 (coherent_push hc hfresh))
      · exact .inl hawaited
    · cases hs
  · cases hs

theorem Kept.sent {n : ℕ} {reply : Post} (h : s.Kept) (hfits : s.Fits (.sent n reply))
    (hs : step s (.sent n reply) = some s') : s'.Kept := by
  simp only [ThreadPane.step] at hs
  split at hs
  · rename_i rootId hn
    split at hs
    · cases hs
      rcases hfits with hfresh | hawaited
      · rcases h with hawaited | hc
        · exact .inl (hawaited.imp fun _ ha => ⟨ha.1, load_mem_eraseIdx hn nofun ha.2⟩)
        · exact .inr (coherent_replyAnswered.2 (coherent_push hc hfresh))
      · exact .inl hawaited
    · cases hs
  · cases hs

theorem Kept.failed {n : ℕ} (h : s.Kept) (hs : step s (.failed n) = some s') : s'.Kept := by
  simp only [ThreadPane.step] at hs
  split at hs
  · cases hs
    right
    constructor <;> simp [openFailed, closeThread]
  · rename_i hn
    cases hs
    exact h.of_same (fun _ hm => load_mem_eraseIdx hn nofun hm) rfl rfl rfl
  · rename_i hn
    cases hs
    exact h.of_same (fun _ hm => load_mem_eraseIdx hn nofun hm) rfl rfl rfl
  · cases hs

theorem Kept.onNewReply {post : Post} (h : s.Kept) (hfits : s.Fits (.onNewReply post)) :
    Kept { s with pane := s.pane.onNewReply post } := by
  by_cases hheld : post.id ∈ s.pane.replies.map Post.id
  · rw [onNewReply_of_held hheld]
    exact h
  · rw [onNewReply_of_not_held hheld]
    rcases h with hawaited | hc
    · exact .inl hawaited
    · rcases hfits with hfresh | hin | hawaited
      · exact .inr (coherent_countReply.2 (coherent_push hc hfresh))
      · exact absurd hin hheld
      · exact .inl hawaited

theorem Kept.onPostDeleted {postId : String} (h : s.Kept) :
    Kept { s with pane := s.pane.onPostDeleted postId } := by
  rw [ThreadState.onPostDeleted]
  split
  · exact .inr coherent_closeThread
  · rcases h with ⟨openId, hopen, hmem⟩ | hc
    · exact .inl ⟨openId, parentPostId_removeReply.trans hopen, hmem⟩
    · exact .inr (coherent_removeReply hc)

theorem Kept.step (h : s.Kept) (hfits : s.Fits input) (hs : step s input = some s') : s'.Kept := by
  cases input with
  | openThread postId =>
    simp only [ThreadPane.step] at hs
    split at hs
    · cases hs
      exact h
    · cases hs
      exact .inl ⟨postId, rfl, by simp⟩
  | closeThread =>
    cases hs
    exact .inr coherent_closeThread
  | loadMoreReplies =>
    simp only [ThreadPane.step] at hs
    split at hs
    · split at hs
      · cases hs
        exact h
      · cases hs
        exact h.of_same (fun _ hm => List.mem_append_left _ hm) rfl rfl rfl
    · cases hs
      exact h
  | sendReply =>
    simp only [ThreadPane.step] at hs
    split at hs
    · split at hs
      · cases hs
        exact h
      · cases hs
        exact h.of_same (fun _ hm => List.mem_append_left _ hm) rfl rfl rfl
    · cases hs
      exact h
  | answered n response => exact h.answered hfits hs
  | sent n reply => exact h.sent hfits hs
  | failed n => exact h.failed hs
  | onNewReply post =>
    cases hs
    exact h.onNewReply hfits
  | onPostDeleted postId =>
    cases hs
    exact h.onPostDeleted

theorem fits_of_kept (h : s'.Kept) (hs : ThreadPane.step s input = some s') : s.Fits input := by
  cases input with
  | answered n response =>
    simp only [ThreadPane.step] at hs
    simp only [Fits]
    split at hs
    · split at hs
      · rename_i hthread
        cases hs
        rcases h with hawaited | hc
        · exact .inr hawaited
        · exact .inl ((coherent_openAnswered hthread).1 hc)
      · cases hs
    · split at hs
      · cases hs
        rcases h with hawaited | hc
        · exact .inr hawaited
        · exact .inl (fresh_of_coherent_push (coherent_moreAnswered.1 hc))
      · cases hs
    · cases hs
  | sent n reply =>
    simp only [ThreadPane.step] at hs
    split at hs
    · split at hs
      · cases hs
        rcases h with hawaited | hc
        · exact .inr hawaited
        · exact .inl (fresh_of_coherent_push (coherent_replyAnswered.1 hc))
      · cases hs
    · cases hs
  | onNewReply post =>
    cases hs
    by_cases hheld : post.id ∈ s.pane.replies.map Post.id
    · exact .inr (.inl hheld)
    · rw [onNewReply_of_not_held hheld] at h
      rcases h with hawaited | hc
      · exact .inr (.inr hawaited)
      · exact .inl (fresh_of_coherent_push (coherent_countReply.1 hc))
  | _ => trivial

/-- The response that has only the post asked for. -/
def rootOnly (postId : String) : ThreadResponse where
  order := [postId]
  posts := AList.insert postId ⟨postId, "", none, 0⟩ ∅
  nextCursor := none

theorem ofThread_rootOnly (postId : String) : (rootOnly postId).ofThread postId := by
  refine ⟨List.nodup_singleton _, (AList.mem_insert _).2 (.inl rfl), fun e he => ?_⟩
  rcases Assoc.lookup_insert_cases (Assoc.mem_entries_iff.1 he) with ⟨hid, hpost⟩ | ⟨-, hl⟩
  · rw [← hpost, hid]
    exact ⟨rfl, .inl rfl⟩
  · cases hl

theorem exists_shorter (h : ¬ s.Kept) (hbusy : ¬ s.Quiet) : ∃ inputs s', Run.exec ThreadPane.step s inputs = some s' ∧
    ¬ s'.Kept ∧ s'.requests.length < s.requests.length := by
  obtain ⟨request, rest, hr⟩ := List.exists_cons_of_ne_nil hbusy
  have hlt : rest.length < s.requests.length := by rw [hr]; exact Nat.lt_succ_self _
  have hback : ∀ pane : ThreadState, pane.parentPostId = s.pane.parentPostId → pane.parentPost = s.pane.parentPost →
      pane.replies = s.pane.replies → ¬ Kept ⟨pane, rest⟩ := by
    intro pane hid hparent hreplies hk
    refine h (hk.of_same (fun postId hm => ?_) hid.symm (by rw [hparent]) hreplies.symm)
    rw [hr]
    exact List.mem_cons_of_mem _ hm
  cases request with
  | load postId =>
    have hs : ThreadPane.step s (.answered 0 (rootOnly postId)) =
        some ⟨s.pane.openAnswered postId (rootOnly postId), rest⟩ := by
      simp [ThreadPane.step, hr, ofThread_rootOnly]
    refine ⟨[_], _, Run.exec_singleton.trans hs, fun hk => h (.inl ?_), hlt⟩
    have hfits := fits_of_kept hk hs
    simp only [Fits, hr] at hfits
    rcases hfits with hopen | hawaited
    · exact ⟨postId, hopen, by rw [hr]; exact List.mem_cons_self⟩
    · exact Awaited.of_eraseIdx (hr ▸ hawaited)
  | more postId =>
    have hs : ThreadPane.step s (.failed 0) = some ⟨{ s.pane with isLoading := false }, rest⟩ := by
      simp [ThreadPane.step, hr]
    exact ⟨[_], _, Run.exec_singleton.trans hs, hback _ rfl rfl rfl, hlt⟩
  | reply rootId =>
    have hs : ThreadPane.step s (.failed 0) = some ⟨{ s.pane with isSending := false }, rest⟩ := by
      simp [ThreadPane.step, hr]
    exact ⟨[_], _, Run.exec_singleton.trans hs, hback _ rfl rfl rfl, hlt⟩

theorem exists_incoherent (h : ¬ s.Kept) :
    ∃ inputs t, Run.exec ThreadPane.step s inputs = some t ∧ t.Quiet ∧ ¬ t.pane.Coherent := by
  obtain ⟨inputs, t, ht, hkept, hquiet⟩ :=
    Run.exists_exec (fun s : ThreadPane => s.requests.length) (fun _ => exists_shorter) h
  exact ⟨inputs, t, ht, hquiet, fun hc => hkept (.inr hc)⟩

/-- In a run whose steps all fit, what is shown belongs to one thread whenever no request is pending. After any
other step the requests can end such that it does not. -/
theorem coherent_of_fits (inputs : List ThreadInput) :
    (Run.AllSteps ThreadPane.step Fits init inputs →
      Run.AllStates ThreadPane.step (fun s => s.Quiet → s.pane.Coherent) init inputs) ∧
    ∀ s input s', ThreadPane.step s input = some s' → ¬ s.Fits input →
      ∃ inputs' t, Run.exec ThreadPane.step s' inputs' = some t ∧ t.Quiet ∧ ¬ t.pane.Coherent := by
  constructor
  · intro hfits
    have hinit : init.Kept := .inr (by constructor <;> simp [init, ThreadState.init])
    refine (Run.allStates_of_allSteps (fun _ _ _ h hf hs => h.step hf hs) hinit hfits).mono ?_
    rintro s (⟨postId, -, hmem⟩ | hc) hquiet
    · rw [hquiet] at hmem
      cases hmem
    · exact hc
  · intro s input s' hs hfits
    exact exists_incoherent fun hk => hfits (fits_of_kept hk hs)

/-- The thread `a` is opened, then `b`, and the answer to the first request comes last. -/
theorem late_answer_shown : ¬ Run.AllStates ThreadPane.step (fun s => s.Quiet → s.pane.Coherent) init
    [.openThread "a", .openThread "b", .answered 1 (rootOnly "b"), .answered 0 (rootOnly "a")] := by
  intro h
  have hc := h [_, _, _, _] [] rfl _ rfl rfl
  have hid := hc.parent _ rfl
  exact absurd hid (by decide)

end ThreadPane

end Rustchat
