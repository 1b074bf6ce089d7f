import Rustchat.Client
import Rustchat.Lib.FirstMatch

/-!
# Message lists (`stores/messages.ts`, `sendMessage` of `useWebSocket.ts`)

The functions that write a list of messages besides those of `Client`, and what each does to the lists:
`list_updateOptimisticMessage`, `list_handleNewMessage` and so on.
-/

open FirstMatch (upsertFirst)

namespace Rustchat

namespace Client

inductive ListRef
  | channel (id : String)
  | thread (id : String)
deriving DecidableEq

/-- An absent list counts as empty. -/
def State.list (s : State) : ListRef → List Message
  | .channel id => (s.messagesByChannel.lookup id).getD []
  | .thread id => (s.repliesByThread.lookup id).getD []

def State.Has (s : State) : ListRef → Prop
  | .channel id => id ∈ s.messagesByChannel
  | .thread id => id ∈ s.repliesByThread

def Message.home (message : Message) : ListRef :=
  match message.rootId with
  | some rootId => .thread rootId
  | none => .channel message.channelId

def fetched (posts : List Post) : List Message :=
  ((posts.filter fun p => p.rootPostId = none ∨ p.rootPostId = some "").map postToMessage).reverse

def setMessages (s : State) (channelId : String) (messages : List Message) : State :=
  { s with messagesByChannel := s.messagesByChannel.insert channelId messages }

/-- The temporary message of `sendMessage`. -/
def tempMessage (clientMsgId channelId userId content : String) (rootId : Option String) : Message where
  id := clientMsgId
  channelId := channelId
  userId := some userId
  content := content
  threadCount := 0
  rootId := rootId.filter (· ≠ "")
  isPinned := false
  clientMsgId := some clientMsgId

def addOptimisticMessage (s : State) (message : Message) : State :=
  match message.rootId with
  | some rootId =>
    { s with repliesByThread := s.repliesByThread.insert rootId ((s.repliesByThread.lookup rootId).getD [] ++ [message]) }
  | none => setMessages s message.channelId ((s.messagesByChannel.lookup message.channelId).getD [] ++ [message])

/-- An entry of the message that was sent with `clientMsgId`. -/
def Stands (clientMsgId : String) (m : Message) : Prop :=
  m.clientMsgId = some clientMsgId ∨ m.id = clientMsgId

instance (clientMsgId : String) (m : Message) : Decidable (Stands clientMsgId m) :=
  inferInstanceAs (Decidable (_ ∨ _))

def updateOptimisticMessage (s : State) (clientMsgId : String) (serverMsg : Message) : State :=
  let put := upsertFirst (fun m => Stands clientMsgId m) serverMsg
  match serverMsg.rootId with
  | some rootId => { s with repliesByThread := Assoc.modify rootId put s.repliesByThread }
  | none => { s with messagesByChannel := Assoc.modify serverMsg.channelId put s.messagesByChannel }

/-! ### What they do to the lists -/

variable {s : State} {message : Message} {ref : ListRef} {channelId clientMsgId : String}
    {messages : List Message}

theorem upsert_eq (message : Message) (ms : List Message) :
    upsert message ms = upsertFirst (fun m => SameMessage message m) message ms := by
  induction ms with
  | nil => rfl
  | cons m ms ih =>
    rw [upsert]
    by_cases h : SameMessage message m
    · simp [upsertFirst, FirstMatch.updateFirst, h]
    · rw [if_neg h, ih, upsertFirst, upsertFirst, List.find?_cons_of_neg (by simpa using h)]
      cases List.find? (fun m => decide (SameMessage message m)) ms with
      | none => rfl
      | some m' => simp [FirstMatch.updateFirst, h]

theorem list_setMessages : (setMessages s channelId messages).list ref =
    if ref = .channel channelId then messages else s.list ref := by
  cases ref with
  | channel id =>
    simp only [State.list, setMessages, Assoc.lookup_insert_eq, ListRef.channel.injEq]
    split <;> rfl
  | thread id => rfl

theorem list_addOptimisticMessage : (addOptimisticMessage s message).list ref =
    if ref = message.home then s.list ref ++ [message] else s.list ref := by
  unfold addOptimisticMessage Message.home
  cases message.rootId with
  | none =>
    dsimp only
    rw [list_setMessages]
    split
    · rename_i h
      rw [h]
      rfl
    · rfl
  | some rootId =>
    cases ref with
    | channel id => simp [State.list]
    | thread id =>
      simp only [State.list, Assoc.lookup_insert_eq, ListRef.thread.injEq]
      split
      · rename_i h
        rw [h]
        rfl
      · rfl

theorem getD_of_mem {lists : Assoc String (List Message)} {key id : String} {f : List Message → List Message}
    (h : key ∈ lists) : (if id = key then (lists.lookup key).map f else lists.lookup id).getD [] =
      if id = key then f ((lists.lookup id).getD []) else (lists.lookup id).getD [] := by
  by_cases hid : id = key
  · obtain ⟨l, hl⟩ := Option.isSome_iff_exists.1 (AList.lookup_isSome.2 h)
    rw [if_pos hid, if_pos hid, hid, hl]
    rfl
  · rw [if_neg hid, if_neg hid]

theorem list_updateOptimisticMessage (h : s.Has message.home) :
    (updateOptimisticMessage s clientMsgId message).list ref =
      if ref = message.home then upsertFirst (fun m => Stands clientMsgId m) message (s.list ref) else s.list ref := by
  unfold updateOptimisticMessage Message.home at *
  cases hroot : message.rootId with
  | none =>
    rw [hroot] at h
    cases ref with
    | thread id => simp [State.list]
    | channel id =>
      simp only [State.Has, State.list, Assoc.lookup_modify, ListRef.channel.injEq] at h ⊢
      exact getD_of_mem h
  | some rootId =>
    rw [hroot] at h
    cases ref with
    | channel id => simp [State.list]
    | thread id =>
      simp only [State.Has, State.list, Assoc.lookup_modify, ListRef.thread.injEq] at h ⊢
      exact getD_of_mem h

/-- A posted event: its message comes into the list it belongs in, and a reply leaves the channel. -/
theorem list_handleNewMessage {post : Post} (hm : postToMessage post = message) : (handleNewMessage s post).list ref =
    if ref = message.home then upsertFirst (fun m => SameMessage message m) message (s.list ref)
    else if message.rootId ≠ none ∧ ref = .channel message.channelId then
      (s.list ref).eraseP fun m => SameMessage message m
    else s.list ref := by
  have hmention : ∀ (p : Prop) [Decidable p] (s : State) (mentions : Assoc String Int),
      (if p then { s with channelMentions := mentions } else s).list ref = s.list ref := by
    intro p _ s mentions
    split <;> cases ref <;> rfl
  unfold handleNewMessage Message.home
  rw [hm]
  dsimp only
  rw [hmention]
  cases hroot : message.rootId with
  | none =>
    cases ref with
    | thread id => simp [State.list]
    | channel id =>
      simp only [State.list, Assoc.lookup_insert_eq, ListRef.channel.injEq, upsert_eq]
      split
      · rename_i h
        rw [h]
        rfl
      · simp
  | some rootId =>
    cases ref with
    | thread id =>
      simp only [State.list, Assoc.lookup_insert_eq, ListRef.thread.injEq, upsert_eq]
      split
      · rename_i h
        rw [h]
        rfl
      · simp
    | channel id =>
      simp only [State.list, Assoc.lookup_modify, ListRef.channel.injEq]
      by_cases hid : id = message.channelId
      · rw [if_pos hid, hid]
        cases s.messagesByChannel.lookup message.channelId <;> simp
      · simp [hid]

theorem list_handleMessageDelete {id : String} :
    (handleMessageDelete s id).list ref = (s.list ref).eraseP fun m => m.id = id := by
  cases ref with
  | channel channelId =>
    simp only [State.list, handleMessageDelete, Assoc.lookup_mapValues]
    cases s.messagesByChannel.lookup channelId <;> rfl
  | thread rootId =>
    simp only [State.list, handleMessageDelete, Assoc.lookup_mapValues]
    cases s.repliesByThread.lookup rootId <;> rfl

/-! ### A list that was made stays -/

theorem has_setMessages (h : s.Has ref) : (setMessages s channelId messages).Has ref := by
  cases ref with
  | channel id => exact (AList.mem_insert _).2 (.inr h)
  | thread id => exact h

theorem has_addOptimisticMessage (h : s.Has ref ∨ ref = message.home) :
    (addOptimisticMessage s message).Has ref := by
  unfold addOptimisticMessage Message.home at *
  cases hroot : message.rootId with
  | none =>
    rw [hroot] at h
    rcases h with h | rfl
    · exact has_setMessages h
    · exact (AList.mem_insert _).2 (.inl rfl)
  | some rootId =>
    rw [hroot] at h
    rcases h with h | rfl
    · cases ref with
      | channel id => exact h
      | thread id => exact (AList.mem_insert _).2 (.inr h)
    · exact (AList.mem_insert _).2 (.inl rfl)

theorem has_updateOptimisticMessage (h : s.Has ref) :
    (updateOptimisticMessage s clientMsgId message).Has ref := by
  unfold updateOptimisticMessage
  cases message.rootId <;> cases ref <;> simpa [State.Has, Assoc.mem_modify] using h

theorem has_handleNewMessage {post : Post} (h : s.Has ref) : (handleNewMessage s post).Has ref := by
  have hmention : ∀ (p : Prop) [Decidable p] (s : State) (mentions : Assoc String Int),
      s.Has ref → (if p then { s with channelMentions := mentions } else s).Has ref := by
    intro p _ s mentions h
    split <;> cases ref <;> exact h
  unfold handleNewMessage
  refine hmention _ _ _ ?_
  dsimp only
  split <;> cases ref <;> simp [State.Has, Assoc.mem_modify] <;> tauto

theorem has_handleMessageDelete {id : String} (h : s.Has ref) : (handleMessageDelete s id).Has ref := by
  cases ref <;> exact Assoc.mem_mapValues.2 h

end Client

end Rustchat
