import Rustchat.Lib.Utf16
import Rustchat.ThreadStore

/-!
# Drafts of the open thread (`features/messages/stores/threadStore.ts`)

The store has one field for the draft that is shown, and `localStorage` has a draft for each thread. `DraftPane` adds
them to `ThreadPane`. A text carries the thread that was open when it was entered, and `unsent` remembers the last text
of each thread until it is sent: the code knows neither. `DraftPane.isolated_of_keeps` says in which runs texts stay with
their threads.
-/

namespace Rustchat

open ThreadStore ThreadStore.ThreadState

open Utf16 (Units unit trim)

structure Draft where
  text : Units
  thread : Option String
deriving DecidableEq

structure DraftPane where
  pane : ThreadPane
  draft : Draft
  storage : Assoc String Draft
  /-- The message of the reply under way, of which `isSending` allows one. -/
  sending : Units
  unsent : Assoc String Units

inductive DraftInput
  | openThread (postId : String)
  | closeThread
  | loadMoreReplies
  | setDraft (value : Units)
  | sendReply (message : Units)
  | answered (n : ℕ) (response : ThreadResponse)
  | sent (n : ℕ) (reply : Post)
  | failed (n : ℕ)
  | onNewReply (post : Post)
  | onPostDeleted (postId : String)

/-- The reply is the text, as it is or trimmed. -/
def Sends (message text : Units) : Prop := message = text ∨ message = trim text

instance (message text : Units) : Decidable (Sends message text) := inferInstanceAs (Decidable (_ ∨ _))

namespace DraftPane

def init (saved : Assoc String Units) : DraftPane where
  pane := .init
  draft := ⟨[], none⟩
  storage := Assoc.mapEntries (fun postId text => ⟨text, some postId⟩) saved
  sending := []
  unsent := saved

def opened (s : DraftPane) : Option String := s.pane.pane.parentPostId

def savedText (s : DraftPane) (postId : String) : Units := ((s.storage.lookup postId).map Draft.text).getD []

def unsentText (s : DraftPane) (postId : String) : Units := (s.unsent.lookup postId).getD []

/-! ### What the functions do to the drafts -/

/-- `closeThread` -/
def save (s : DraftPane) : DraftPane :=
  { s with
    storage := match s.opened with
      | some postId => if postId ≠ "" ∧ trim s.draft.text ≠ [] then s.storage.insert postId s.draft else s.storage
      | none => s.storage
    draft := ⟨[], none⟩ }

/-- `openThread`, when it is answered. -/
def showSaved (s : DraftPane) (postId : String) : DraftPane :=
  match s.storage.lookup postId with
  | some savedDraft => if savedDraft.text ≠ [] then { s with draft := savedDraft } else s
  | none => s

def setDraft (s : DraftPane) (value : Units) : DraftPane :=
  let draft : Draft := ⟨value, s.opened⟩
  match s.opened with
  | some postId =>
    { s with
      draft
      storage := if postId ≠ "" then s.storage.insert postId draft else s.storage
      unsent := s.unsent.insert postId value }
  | none => { s with draft }

/-- `sendReply`, when the reply to `rootId` is answered. What is removed is the draft of the thread that is open then, and
without one that of the key `thread_draft_null`. -/
def clearSent (s : DraftPane) (rootId : String) : DraftPane :=
  { s with
    draft := ⟨[], none⟩
    storage := s.storage.erase (s.opened.getD "null")
    unsent := if Sends s.sending (s.unsentText rootId) then s.unsent.erase rootId else s.unsent }

def step (s : DraftPane) : DraftInput → Option DraftPane
  | .openThread postId => (s.pane.step (.openThread postId)).map fun pane => { s with pane }
  | .closeThread => (s.pane.step .closeThread).map fun pane => { s.save with pane }
  | .loadMoreReplies => (s.pane.step .loadMoreReplies).map fun pane => { s with pane }
  | .setDraft value => some (s.setDraft value)
  | .sendReply message =>
    (s.pane.step .sendReply).map fun pane =>
      { s with pane, sending := if s.pane.pane.isSending then s.sending else message }
  | .answered n response =>
    (s.pane.step (.answered n response)).map fun pane =>
      match s.pane.requests[n]? with
      | some (.load postId) => { s.showSaved postId with pane }
      | _ => { s with pane }
  | .sent n reply =>
    (s.pane.step (.sent n reply)).map fun pane =>
      match s.pane.requests[n]? with
      | some (.reply rootId) => { s.clearSent rootId with pane }
      | _ => { s with pane }
  | .failed n =>
    (s.pane.step (.failed n)).map fun pane =>
      match s.pane.requests[n]? with
      | some (.load _) => { s.save with pane }
      | _ => { s with pane }
  | .onNewReply post => (s.pane.step (.onNewReply post)).map fun pane => { s with pane }
  | .onPostDeleted postId =>
    (s.pane.step (.onPostDeleted postId)).map fun pane =>
      if s.opened = some postId then { s.save with pane } else { s with pane }

/-! ### Isolation -/

/-- A text is shown in its thread only and stored under its thread's key only, and what was not sent is shown when its
thread is open and loaded. -/
structure Isolated (s : DraftPane) : Prop where
  shown (postId : String) (hne : s.draft.text ≠ []) (h : s.draft.thread = some postId) : s.opened = some postId
  stored (key : String) (d : Draft) (hd : s.storage.lookup key = some d) (hne : d.text ≠ []) (postId : String)
    (h : d.thread = some postId) : key = postId
  restored (postId : String) (text : Units) (h : s.unsent.lookup postId = some text) (hne : text ≠ [])
    (hopen : s.opened = some postId) (hloaded : .load postId ∉ s.pane.requests) : s.draft.text = text

/-- The condition on a step: a thread has a name and is opened with no draft shown, the answer to a request for a thread
with a stored draft finds it open, and a reply that succeeds finds no unsent draft but the one that it is. -/
def Keeps (s : DraftPane) : DraftInput → Prop
  | .openThread postId => postId ≠ "" ∧ (s.opened = some postId ∧ s.pane.pane.isOpen ∨ s.draft.text = [])
  | .answered n _ =>
    match s.pane.requests[n]? with
    | some (.load postId) => s.opened = some postId ∨ s.savedText postId = []
    | _ => True
  | .sent n _ =>
    match s.pane.requests[n]? with
    | some (.reply rootId) =>
      s.unsentText (s.opened.getD "null") = [] ∨
        s.opened.getD "null" = rootId ∧ Sends s.sending (s.unsentText rootId)
    | _ => True
  | _ => True

/-- What a run of such steps keeps. -/
structure Kept (s : DraftPane) : Prop where
  named : s.opened ≠ some ""
  origin (hne : s.draft.text ≠ []) : s.draft.thread = s.opened
  stored (key : String) (d : Draft) (hd : s.storage.lookup key = some d) (hne : d.text ≠ []) : d.thread = some key
  unsent (postId : String) (text : Units) (h : s.unsent.lookup postId = some text) (hne : text ≠ []) :
    s.savedText postId = text
  current (postId : String) (h : s.opened = some postId) :
    s.draft.text = s.savedText postId ∨ s.draft.text = [] ∧ .load postId ∈ s.pane.requests

variable {s s' : DraftPane} {pane : ThreadPane} {postId : String}

theorem Kept.isolated (h : s.Kept) : s.Isolated where
  shown postId hne hthread := (h.origin hne).symm.trans hthread
  stored key d hd hne postId hthread := Option.some.inj ((h.stored key d hd hne).symm.trans hthread)
  restored postId text hunsent hne hopen hloaded := by
    have hsaved := h.unsent postId text hunsent hne
    rcases h.current postId hopen with hdraft | ⟨-, hload⟩
    · exact hdraft.trans hsaved
    · exact absurd hload hloaded

theorem Kept.of_pane (h : s.Kept) (hopen : pane.pane.parentPostId = s.opened)
    (hload : ∀ postId, s.opened = some postId → .load postId ∈ s.pane.requests → .load postId ∈ pane.requests) :
    Kept { s with pane } where
  named := by
    rw [opened, hopen]
    exact h.named
  origin hne := (h.origin hne).trans hopen.symm
  stored := h.stored
  unsent := h.unsent
  current postId hp := by
    have hp' : s.opened = some postId := hopen.symm.trans hp
    exact (h.current postId hp').imp id fun hc => ⟨hc.1, hload postId hp' hc.2⟩

theorem savedText_save (h : s.Kept) (key : String) : s.save.savedText key = s.savedText key := by
  simp only [savedText, save]
  cases hopen : s.opened with
  | none => rfl
  | some postId =>
    dsimp only
    split
    · rename_i hstore
      rw [Assoc.lookup_insert_eq]
      split
      · rename_i hkey
        subst hkey
        rcases h.current key hopen with hdraft | ⟨hnil, -⟩
        · exact hdraft
        · rw [hnil] at hstore
          exact absurd rfl hstore.2
      · rfl
    · rfl

theorem Kept.closed (h : s.Kept) (hclosed : pane.pane.parentPostId = none) : Kept { s.save with pane } where
  named := by
    rw [opened, hclosed]
    exact nofun
  origin hne := absurd rfl hne
  stored key d hd hne := by
    simp only [save] at hd
    split at hd
    · rename_i postId hopen
      split at hd
      · rcases Assoc.lookup_insert_cases hd with ⟨rfl, rfl⟩ | ⟨-, hd⟩
        · exact (h.origin hne).trans hopen
        · exact h.stored key d hd hne
      · exact h.stored key d hd hne
    · exact h.stored key d hd hne
  unsent postId text hunsent hne := (savedText_save h postId).trans (h.unsent postId text hunsent hne)
  current postId hp := by
    rw [opened, hclosed] at hp
    cases hp

theorem Kept.setDraft (h : s.Kept) (value : Units) : (s.setDraft value).Kept := by
  cases hopen : s.opened with
  | none =>
    have hset : s.setDraft value = { s with draft := ⟨value, none⟩ } := by rw [DraftPane.setDraft, hopen]
    have hopen' : (s.setDraft value).opened = none := by rw [hset]; exact hopen
    rw [hset] at hopen' ⊢
    exact ⟨fun hp => absurd (hopen'.symm.trans hp) nofun, fun _ => hopen'.symm, h.stored, h.unsent,
      fun postId hp => absurd (hopen'.symm.trans hp) nofun⟩
  | some postId =>
    have hname : postId ≠ "" := fun hp => h.named (hopen.trans (congrArg some hp))
    have hset : s.setDraft value = { s with
        draft := ⟨value, some postId⟩
        storage := s.storage.insert postId ⟨value, some postId⟩
        unsent := s.unsent.insert postId value } := by
      simp only [DraftPane.setDraft, hopen, if_pos hname]
    have hsaved : ∀ key, (s.setDraft value).savedText key = if key = postId then value else s.savedText key := by
      intro key
      rw [savedText, hset, Assoc.lookup_insert_eq]
      split <;> rfl
    have hopen' : (s.setDraft value).opened = some postId := by rw [hset]; exact hopen
    refine ⟨?_, fun _ => ?_, fun key d hd hne => ?_, fun key text hunsent hne => ?_, fun key hp => .inl ?_⟩
    · rw [hopen', hopen.symm]
      exact h.named
    · rw [hopen', hset]
    · rw [hset] at hd
      rcases Assoc.lookup_insert_cases hd with ⟨rfl, rfl⟩ | ⟨-, hd⟩
      · rfl
      · exact h.stored key d hd hne
    · rw [hsaved]
      rw [hset] at hunsent
      rcases Assoc.lookup_insert_cases hunsent with ⟨rfl, rfl⟩ | ⟨hkey, hunsent⟩
      · rw [if_pos rfl]
      · rw [if_neg hkey, h.unsent key text hunsent hne]
    · obtain rfl := Option.some.inj (hopen'.symm.trans hp)
      rw [hsaved, if_pos rfl, hset]

theorem showSaved_of_nil (h : s.savedText postId = []) : s.showSaved postId = s := by
  rw [showSaved]
  split
  · rename_i d hd
    have htext : d.text = [] := by simpa [savedText, hd] using h
    rw [if_neg (not_not.2 htext)]
  · rfl

theorem showSaved_of_ne_nil (h : s.savedText postId ≠ []) :
    ∃ d, s.storage.lookup postId = some d ∧ d.text = s.savedText postId ∧ s.showSaved postId = { s with draft := d } := by
  rw [showSaved]
  cases hd : s.storage.lookup postId with
  | none => exact absurd (by rw [savedText, hd]; rfl) h
  | some d =>
    have htext : s.savedText postId = d.text := by rw [savedText, hd]; rfl
    exact ⟨d, rfl, htext.symm, if_pos (htext ▸ h)⟩

theorem Kept.answered (h : s.Kept) {n : ℕ} (hn : s.pane.requests[n]? = some (.load postId))
    (hkeeps : s.opened = some postId ∨ s.savedText postId = []) (hopen : pane.pane.parentPostId = s.opened)
    (hrequests : pane.requests = s.pane.requests.eraseIdx n) : Kept { s.showSaved postId with pane } := by
  by_cases hsaved : s.savedText postId = []
  · rw [showSaved_of_nil hsaved]
    refine ⟨by rw [opened, hopen]; exact h.named, fun hne => (h.origin hne).trans hopen.symm, h.stored, h.unsent,
      fun openId hp => ?_⟩
    have hp' : s.opened = some openId := hopen.symm.trans hp
    rcases h.current openId hp' with hdraft | ⟨hnil, hload⟩
    · exact .inl hdraft
    · by_cases hid : openId = postId
      · left
        rw [hid]
        exact hnil.trans hsaved.symm
      · right
        refine ⟨hnil, ?_⟩
        rw [hrequests]
        exact ThreadPane.load_mem_eraseIdx hn (fun heq => hid (ThreadRequest.load.inj heq).symm) hload
  · have hcur := hkeeps.resolve_right hsaved
    obtain ⟨d, hd, htext, hshow⟩ := showSaved_of_ne_nil hsaved
    rw [hshow]
    refine ⟨by rw [opened, hopen]; exact h.named, fun hne => ?_, h.stored, h.unsent, fun openId hp => .inl ?_⟩
    · exact (h.stored postId d hd hne).trans (hcur.symm.trans hopen.symm)
    · obtain rfl : postId = openId := Option.some.inj (hcur.symm.trans (hopen.symm.trans hp))
      exact htext

theorem Kept.sent (h : s.Kept) {rootId : String} (hkeeps : s.unsentText (s.opened.getD "null") = [] ∨
      s.opened.getD "null" = rootId ∧ Sends s.sending (s.unsentText rootId))
    (hopen : pane.pane.parentPostId = s.opened) : Kept { s.clearSent rootId with pane } where
  named := by
    rw [opened, hopen]
    exact h.named
  origin hne := absurd rfl hne
  stored key d hd hne := h.stored key d (Assoc.lookup_erase_cases hd).2 hne
  unsent postId text hunsent hne := by
    -- the draft that goes from the storage is the one that was sent
    have hold : s.unsent.lookup postId = some text ∧ postId ≠ s.opened.getD "null" := by
      simp only [clearSent] at hunsent
      split at hunsent
      · obtain ⟨hroot, hunsent⟩ := Assoc.lookup_erase_cases hunsent
        refine ⟨hunsent, fun hkey => ?_⟩
        rcases hkeeps with hnil | ⟨hsame, -⟩
        · rw [← hkey, unsentText, hunsent] at hnil
          exact hne hnil
        · exact hroot (hkey.trans hsame)
      · rename_i hsends
        refine ⟨hunsent, fun hkey => ?_⟩
        rcases hkeeps with hnil | ⟨-, hs⟩
        · rw [← hkey, unsentText, hunsent] at hnil
          exact hne hnil
        · exact hsends hs
    have hlookup : (s.clearSent rootId).storage.lookup postId = s.storage.lookup postId := by
      rw [clearSent, Assoc.lookup_erase_eq, if_neg hold.2]
    have hsaved := h.unsent postId text hold.1 hne
    rw [savedText] at hsaved ⊢
    rw [hlookup]
    exact hsaved
  current postId hp := by
    have hp' : s.opened = some postId := hopen.symm.trans hp
    refine .inl ?_
    simp only [clearSent, savedText, hp', Option.getD_some]
    rw [Assoc.lookup_erase_eq, if_pos rfl]
    rfl

theorem Kept.of_sending (h : s.Kept) (message : Units) : Kept { s with sending := message } :=
  ⟨h.named, h.origin, h.stored, h.unsent, h.current⟩

theorem loads_of_eraseIdx {n : ℕ} {request : ThreadRequest} (hn : s.pane.requests[n]? = some request)
    (hother : ∀ postId, request ≠ .load postId) (postId : String) (hload : .load postId ∈ s.pane.requests) :
    .load postId ∈ s.pane.requests.eraseIdx n :=
  ThreadPane.load_mem_eraseIdx hn (hother postId) hload

theorem Kept.step {input : DraftInput} (h : s.Kept) (hkeeps : s.Keeps input) (hs : s.step input = some s') : s'.Kept := by
  cases input with
  | openThread postId =>
    obtain ⟨pane, hpane, rfl⟩ := Option.map_eq_some_iff.1 hs
    simp only [ThreadPane.step] at hpane
    split at hpane
    · cases hpane
      exact h
    · rename_i hnot
      cases hpane
      have hnil := hkeeps.2.resolve_left hnot
      refine ⟨fun hp => hkeeps.1 (Option.some.inj hp), fun hne => absurd hnil hne, h.stored, h.unsent, fun openId hp => ?_⟩
      obtain rfl : postId = openId := Option.some.inj hp
      exact .inr ⟨hnil, by simp⟩
  | closeThread =>
    cases hs
    exact h.closed rfl
  | loadMoreReplies =>
    obtain ⟨pane, hpane, rfl⟩ := Option.map_eq_some_iff.1 hs
    simp only [ThreadPane.step] at hpane
    split at hpane
    · split at hpane
      · cases hpane
        exact h
      · cases hpane
        exact h.of_pane rfl fun _ _ hload => List.mem_append_left _ hload
    · cases hpane
      exact h
  | setDraft value =>
    cases hs
    exact h.setDraft value
  | sendReply message =>
    obtain ⟨pane, hpane, rfl⟩ := Option.map_eq_some_iff.1 hs
    refine Kept.of_sending (s := { s with pane }) ?_ _
    simp only [ThreadPane.step] at hpane
    split at hpane
    · split at hpane
      · cases hpane
        exact h
      · cases hpane
        exact h.of_pane rfl fun _ _ hload => List.mem_append_left _ hload
    · cases hpane
      exact h
  | answered n response =>
    obtain ⟨pane, hpane, rfl⟩ := Option.map_eq_some_iff.1 hs
    simp only [ThreadPane.step] at hpane
    simp only [Keeps] at hkeeps
    split at hpane
    · rename_i postId hn
      rw [hn] at hkeeps ⊢
      split at hpane
      · cases hpane
        exact h.answered hn hkeeps rfl rfl
      · cases hpane
    · rename_i postId hn
      rw [hn]
      split at hpane
      · cases hpane
        exact h.of_pane rfl fun _ _ hload => loads_of_eraseIdx hn (by simp) _ hload
      · cases hpane
    · cases hpane
  | sent n reply =>
    obtain ⟨pane, hpane, rfl⟩ := Option.map_eq_some_iff.1 hs
    simp only [ThreadPane.step] at hpane
    simp only [Keeps] at hkeeps
    split at hpane
    · rename_i rootId hn
      simp only [hn] at hkeeps ⊢
      split at hpane
      · cases hpane
        exact h.sent hkeeps rfl
      · cases hpane
    · cases hpane
  | failed n =>
    obtain ⟨pane, hpane, rfl⟩ := Option.map_eq_some_iff.1 hs
    simp only [ThreadPane.step] at hpane
    split at hpane
    · rename_i postId hn
      rw [hn]
      cases hpane
      exact h.closed rfl
    · rename_i postId hn
      rw [hn]
      cases hpane
      exact h.of_pane rfl fun _ _ hload => loads_of_eraseIdx hn (by simp) _ hload
    · rename_i rootId hn
      rw [hn]
      cases hpane
      exact h.of_pane rfl fun _ _ hload => loads_of_eraseIdx hn (by simp) _ hload
    · cases hpane
  | onNewReply post =>
    cases hs
    refine h.of_pane ?_ fun _ _ hload => hload
    show (s.pane.pane.onNewReply post).parentPostId = s.pane.pane.parentPostId
    rw [onNewReply]
    split <;> rfl
  | onPostDeleted postId =>
    cases hs
    split
    · rename_i hopen
      refine h.closed ?_
      show (s.pane.pane.onPostDeleted postId).parentPostId = none
      rw [opened] at hopen
      rw [onPostDeleted, if_pos hopen]
      rfl
    · rename_i hopen
      refine h.of_pane ?_ fun _ _ hload => hload
      show (s.pane.pane.onPostDeleted postId).parentPostId = s.pane.pane.parentPostId
      rw [opened] at hopen
      rw [onPostDeleted, if_neg hopen, parentPostId_removeReply]

theorem kept_init (saved : Assoc String Units) : (init saved).Kept where
  named := nofun
  origin hne := absurd rfl hne
  stored key d hd _ := by
    rw [init, Assoc.lookup_mapEntries] at hd
    obtain ⟨text, -, rfl⟩ := Option.map_eq_some_iff.1 hd
    rfl
  unsent postId text h _ := by
    have hsaved : saved.lookup postId = some text := h
    rw [savedText, init, Assoc.lookup_mapEntries, hsaved]
    rfl
  current postId h := nomatch h

theorem isolated_of_keeps (saved : Assoc String Units) (inputs : List DraftInput)
    (h : Run.AllSteps step Keeps (init saved) inputs) : Run.AllStates step Isolated (init saved) inputs :=
  (Run.allStates_of_allSteps (fun _ _ _ h hk hs => h.step hk hs) (kept_init saved) h).mono fun _ => Kept.isolated

def letterX : Units := [unit 'x']

theorem isolated_reopened : Run.AllStates step Isolated (init ∅)
    [.openThread "a", .answered 0 (ThreadPane.rootOnly "a"), .setDraft letterX, .closeThread, .openThread "a"] := by
  refine isolated_of_keeps ∅ _ ?_
  refine Run.allSteps_cons.2 ⟨⟨by decide, .inr rfl⟩, fun s hs => ?_⟩
  cases hs
  refine Run.allSteps_cons.2 ⟨.inl rfl, fun s hs => ?_⟩
  cases hs
  refine Run.allSteps_cons.2 ⟨trivial, fun s hs => ?_⟩
  cases hs
  refine Run.allSteps_cons.2 ⟨trivial, fun s hs => ?_⟩
  cases hs
  exact Run.allSteps_cons.2 ⟨⟨by decide, .inr rfl⟩, fun s _ => Run.allSteps_nil⟩

/-- What was entered in the thread `a` is shown in the thread `b`. -/
theorem draft_follows : ¬ Run.AllStates step Isolated (init ∅)
    [.openThread "a", .answered 0 (ThreadPane.rootOnly "a"), .setDraft letterX, .openThread "b"] := by
  intro h
  have hi := h [_, _, _, _] [] rfl _ rfl
  exact absurd (hi.shown "a" (by decide) rfl) (by decide)

end DraftPane

end Rustchat
