import Rustchat.Lib.Assoc
import Rustchat.Lib.FirstMatch
import Rustchat.Lib.Run

/-!
# Sent messages (`features/messages/services/messageService.ts`, `stores/messageStore.ts`)

A message is shown before the server knows it, under the id `temp-<clientId>`, and its answer or its
failure puts an end to that entry. `SendRun.settled_of_inOrder` says in which runs every message has its one entry
when all calls have ended. Files, reactions, times and the props of a message, which no function here
compares, are left out.
-/

open FirstMatch (updateFirst)

namespace Rustchat

namespace MessageService

inductive MessageStatus
  | sending
  | delivered
  | failed
deriving DecidableEq

/-- `temp-<clientId>`, or an id that the server gave, which has no such prefix. -/
inductive MessageId
  | temp (clientId : String)
  | server (id : String)
deriving DecidableEq

/-- `none` is an absent or an empty root or client id. -/
structure Message where
  id : MessageId
  channelId : String
  userId : String
  content : String
  rootId : Option MessageId
  status : MessageStatus
  clientId : Option String
deriving DecidableEq

structure MessageDraft where
  channelId : String
  content : String
  rootId : Option MessageId
  clientId : Option String
deriving DecidableEq

structure CreatePostRequest where
  channelId : String
  message : String
  rootPostId : Option MessageId
  clientMsgId : Option String

structure Post where
  id : String
  channelId : String
  userId : String
  message : String
  rootPostId : Option MessageId
  clientMsgId : Option String

/-- The payload of `create`. Of the draft's props, which hold the generated id, nothing is sent. -/
def createPayload (draft : MessageDraft) : CreatePostRequest where
  channelId := draft.channelId
  message := draft.content
  rootPostId := draft.rootId
  clientMsgId := draft.clientId

/-- The post that the server makes of a request (`create_post`). -/
def createPost (id userId : String) (payload : CreatePostRequest) : Post where
  id := id
  channelId := payload.channelId
  userId := userId
  message := payload.message
  rootPostId := payload.rootPostId
  clientMsgId := payload.clientMsgId

def postToMessage (post : Post) : Message where
  id := .server post.id
  channelId := post.channelId
  userId := post.userId
  content := post.message
  rootId := post.rootPostId
  status := .delivered
  clientId := post.clientMsgId

/-- The post of an event, with the `client_msg_id` of its props. -/
structure WsPost where
  id : String
  channelId : String
  userId : String
  message : String
  rootId : Option String
  clientMsgId : Option String
deriving DecidableEq

def normalizePost (post : WsPost) : Message where
  id := .server post.id
  channelId := post.channelId
  userId := post.userId
  content := post.message
  rootId := post.rootId.map .server
  status := .delivered
  clientId := post.clientMsgId

inductive ListKey
  | channel (channelId : String)
  | thread (rootId : MessageId)
deriving DecidableEq

/-- `messagesByChannel` and `threadRepliesByRoot`. An absent list counts as empty everywhere below. -/
abbrev Store := ListKey → List Message

namespace Store

def edit (store : Store) (key : ListKey) (f : List Message → List Message) : Store :=
  Function.update store key (f (store key))

def findMessageByClientId (store : Store) (channelId clientId : String) : Option Message :=
  (store (.channel channelId)).find? fun m => m.clientId = some clientId

def getMessageById (store : Store) (channelId : String) (id : MessageId) : Option Message :=
  (store (.channel channelId)).find? fun m => m.id = id

def addMessage (store : Store) (channelId : String) (message : Message) : Store :=
  store.edit (.channel channelId) (· ++ [message])

def addThreadReply (store : Store) (rootId : MessageId) (reply : Message) : Store :=
  store.edit (.thread rootId) (· ++ [reply])

def updateMessage (store : Store) (message : Message) : Store :=
  let update := updateFirst (fun m => m.id = message.id) fun _ => message
  let store := store.edit (.channel message.channelId) update
  match message.rootId with
  | some rootId => store.edit (.thread rootId) update
  | none => store

def replaceOptimisticMessage (store : Store) (channelId clientId : String) (message : Message) : Store :=
  store.edit (.channel channelId) (updateFirst (fun m => m.clientId = some clientId) fun _ => message)

def replaceOptimisticThreadReply (store : Store) (rootId : MessageId) (clientId : String)
    (message : Message) : Store :=
  store.edit (.thread rootId) (updateFirst (fun m => m.clientId = some clientId) fun _ => message)

def markMessageFailed (store : Store) (channelId clientId : String) : Store :=
  store.edit (.channel channelId) (updateFirst (fun m => m.clientId = some clientId) fun m => { m with status := .failed })

end Store

def createOptimisticMessage (draft : MessageDraft) (clientId : String) : Message where
  id := .temp clientId
  channelId := draft.channelId
  userId := "me"
  content := draft.content
  rootId := draft.rootId
  status := .sending
  clientId := some clientId

/-- `sendMessage` up to its request. -/
def sendMessage (store : Store) (draft : MessageDraft) (clientId : String) : Store :=
  match draft.rootId with
  | some rootId => store.addThreadReply rootId (createOptimisticMessage draft clientId)
  | none => store.addMessage draft.channelId (createOptimisticMessage draft clientId)

/-- `sendMessage` from the answer on. -/
def sendAnswered (store : Store) (draft : MessageDraft) (clientId : String) (message : Message) : Store :=
  let store := store.replaceOptimisticMessage draft.channelId clientId message
  match draft.rootId with
  | some rootId => store.replaceOptimisticThreadReply rootId clientId message
  | none => store

/-- `sendMessage` from a failure on. -/
def sendFailed (store : Store) (draft : MessageDraft) (clientId : String) : Store :=
  store.markMessageFailed draft.channelId clientId

def handleIncomingMessage (store : Store) (message : Message) : Store :=
  match message.clientId.filter fun clientId => (store.findMessageByClientId message.channelId clientId).isSome with
  | some clientId => store.replaceOptimisticMessage message.channelId clientId message
  | none =>
    if (store.getMessageById message.channelId message.id).isSome then store.updateMessage message
    else match message.rootId with
      | some rootId => store.addThreadReply rootId message
      | none => store.addMessage message.channelId message

def home (channelId : String) : Option MessageId → ListKey
  | some rootId => .thread rootId
  | none => .channel channelId

/-- How often `id` is in a list. -/
def held (store : Store) (key : ListKey) (id : MessageId) : ℕ := (store key).countP fun m => m.id = id

/-- At `key`, `message` came, in the place of the entry `old` if there is one. -/
structure Changes (store : Store) (key : ListKey) (old : Option Message) (message : Message)
    (store' : Store) : Prop where
  count (q : Message → Bool) : (store' key).countP q + (old.elim 0 fun m => if q m then 1 else 0) =
    (store key).countP q + if q message then 1 else 0
  other (key' : ListKey) (hne : key' ≠ key) : store' key' = store key'
  mem (m : Message) (hm : m ∈ store' key) : m = message ∨ m ∈ store key

variable {store store' : Store} {key key' : ListKey} {old : Option Message} {message m : Message} {id : MessageId}
  {draft : MessageDraft} {clientId : String}

theorem held_pos : 0 < held store key id ↔ ∃ m ∈ store key, m.id = id := by
  simp [held, List.countP_pos_iff]

theorem edit_self (f : List Message → List Message) : store.edit key f key = f (store key) :=
  Function.update_self ..

theorem edit_of_ne (h : key' ≠ key) (f : List Message → List Message) : store.edit key f key' = store key' :=
  Function.update_of_ne h ..

theorem changes_append : Changes store key none message (store.edit key (· ++ [message])) where
  count q := by
    rw [edit_self, List.countP_append, List.countP_singleton]
    rfl
  other key' h := edit_of_ne h _
  mem m hm := by
    rw [edit_self] at hm
    simpa [or_comm] using hm

theorem changes_updateFirst {p : Message → Bool} {f : Message → Message} (h : (store key).find? p = some m) :
    Changes store key (some m) (f m) (store.edit key (updateFirst p f)) where
  count q := by
    rw [edit_self]
    exact FirstMatch.countP_updateFirst h q
  other key' h := edit_of_ne h _
  mem m hm := by
    rw [edit_self] at hm
    exact FirstMatch.mem_updateFirst h hm

theorem edit_updateFirst_of_none {p : Message → Bool} (h : (store key).find? p = none) (f : Message → Message) :
    store.edit key (updateFirst p f) = store := by
  rw [Store.edit, FirstMatch.updateFirst_of_none h, Function.update_eq_self]

namespace Changes

theorem held_eq (h : Changes store key old message store') (key' : ListKey) (id : MessageId) :
    held store' key' id + (if key' = key then old.elim 0 fun m => if m.id = id then 1 else 0 else 0) =
      held store key' id + if key' = key ∧ message.id = id then 1 else 0 := by
  by_cases hk : key' = key
  · subst hk
    have hc := h.count fun m => m.id = id
    simp only [decide_eq_true_eq] at hc
    simpa [held] using hc
  · simp [held, hk, h.other key' hk]

theorem mem_cases (h : Changes store key old message store') (hm : m ∈ store' key') :
    (key' = key ∧ m = message) ∨ m ∈ store key' := by
  by_cases hk : key' = key
  · subst hk
    exact (h.mem m hm).imp_left fun hm => ⟨rfl, hm⟩
  · exact .inr (h.other key' hk ▸ hm)

theorem held_of_same (h : Changes store key (some m) message store') (hm : m.id = message.id) (key' : ListKey)
    (id : MessageId) : held store' key' id = held store key' id := by
  have hc := h.held_eq key' id
  by_cases hk : key' = key
  · simp only [hk, if_true, Option.elim_some, hm, true_and] at hc
    rw [hk]
    omega
  · simpa [hk] using hc

theorem held_of_ne (h : Changes store key old message store') (hold : ∀ m, old = some m → m.id ≠ id)
    (hne : message.id ≠ id) (key' : ListKey) : held store' key' id = held store key' id := by
  have hc := h.held_eq key' id
  cases old with
  | none => simpa [hne] using hc
  | some m => simpa [hne, hold m rfl] using hc

theorem held_of_new (h : Changes store key old message store') (hold : ∀ m, old = some m → m.id ≠ id)
    (hid : message.id = id) (key' : ListKey) :
    held store' key' id = held store key' id + if key' = key then 1 else 0 := by
  have hc := h.held_eq key' id
  cases old with
  | none => simpa [hid] using hc
  | some m => simpa [hid, hold m rfl] using hc

theorem held_of_gone (h : Changes store key (some m) message store') (hid : m.id = id) (hne : message.id ≠ id)
    (key' : ListKey) : held store' key' id + (if key' = key then 1 else 0) = held store key' id := by
  simpa [hid, hne] using h.held_eq key' id

end Changes

theorem sendMessage_changes : Changes store (home draft.channelId draft.rootId) none
    (createOptimisticMessage draft clientId) (sendMessage store draft clientId) := by
  unfold sendMessage
  cases draft.rootId <;> exact changes_append

theorem sendAnswered_changes
    (hm : (store (home draft.channelId draft.rootId)).find? (fun m => m.clientId = some clientId) = some m)
    (hno : draft.rootId ≠ none → store.findMessageByClientId draft.channelId clientId = none) :
    Changes store (home draft.channelId draft.rootId) (some m) message (sendAnswered store draft clientId message) := by
  unfold sendAnswered
  cases hroot : draft.rootId with
  | none =>
    rw [hroot] at hm
    exact changes_updateFirst (f := fun _ => message) hm
  | some rootId =>
    rw [hroot] at hm hno
    rw [Store.replaceOptimisticMessage, edit_updateFirst_of_none (hno (by simp))]
    exact changes_updateFirst (f := fun _ => message) hm

theorem sendFailed_changes (hroot : draft.rootId = none)
    (hm : (store (home draft.channelId draft.rootId)).find? (fun m => m.clientId = some clientId) = some m) :
    Changes store (home draft.channelId draft.rootId) (some m) { m with status := .failed }
      (sendFailed store draft clientId) := by
  rw [hroot] at hm ⊢
  exact changes_updateFirst (f := fun m => { m with status := .failed }) hm

theorem updateMessage_same (store : Store) (message : Message) (key : ListKey) :
    (∀ id, held (store.updateMessage message) key id = held store key id) ∧
      ∀ m ∈ store.updateMessage message key, m = message ∨ m ∈ store key := by
  have hedit : ∀ (store : Store) (k key : ListKey),
      (∀ id, held (store.edit k (updateFirst (fun m => m.id = message.id) fun _ => message)) key id = held store key id) ∧
      ∀ m ∈ store.edit k (updateFirst (fun m => m.id = message.id) fun _ => message) key, m = message ∨
        m ∈ store key := by
    intro store k key
    cases hf : (store k).find? fun m => m.id = message.id with
    | none =>
      rw [edit_updateFirst_of_none hf]
      exact ⟨fun _ => rfl, fun m hm => .inr hm⟩
    | some e =>
      have hc := changes_updateFirst (f := fun _ => message) hf
      have he : e.id = message.id := by simpa using List.find?_some hf
      exact ⟨hc.held_of_same he key, fun m hm => (hc.mem_cases hm).imp_left And.right⟩
  unfold Store.updateMessage
  cases message.rootId with
  | none => exact hedit store _ key
  | some rootId =>
    refine ⟨fun id => ((hedit _ _ key).1 id).trans ((hedit store _ key).1 id), fun m hm => ?_⟩
    rcases (hedit _ _ key).2 m hm with rfl | hm
    · exact .inl rfl
    · exact (hedit store _ key).2 m hm

/-- What a posted event can do: it takes the place of the entry with its client id, or of the one with its
id, or comes as a new message. -/
theorem handleIncomingMessage_cases (store : Store) (message : Message) :
    (∃ clientId m, message.clientId = some clientId ∧ store.findMessageByClientId message.channelId clientId = some m ∧
      Changes store (.channel message.channelId) (some m) message (handleIncomingMessage store message)) ∨
    ((∃ m ∈ store (.channel message.channelId), m.id = message.id) ∧
      handleIncomingMessage store message = store.updateMessage message) ∨
    ((∀ m ∈ store (.channel message.channelId), m.id ≠ message.id) ∧
      Changes store (home message.channelId message.rootId) none message (handleIncomingMessage store message)) := by
  unfold handleIncomingMessage
  split
  · rename_i clientId hfilter
    obtain ⟨hclient, hfound⟩ := Option.filter_eq_some_iff.1 hfilter
    obtain ⟨m, hm⟩ := Option.isSome_iff_exists.1 hfound
    exact .inl ⟨clientId, m, hclient, hm, changes_updateFirst (f := fun _ => message) hm⟩
  · split
    · rename_i hfound
      obtain ⟨m, hm⟩ := Option.isSome_iff_exists.1 hfound
      exact .inr (.inl ⟨⟨m, List.mem_of_find?_eq_some hm, by simpa using List.find?_some hm⟩, rfl⟩)
    · rename_i hnone
      rw [Option.not_isSome_iff_eq_none] at hnone
      refine .inr (.inr ⟨fun m hm => by simpa using List.find?_eq_none.1 hnone m hm, ?_⟩)
      cases message.rootId <;> exact changes_append

end MessageService

open MessageService

/-! ### Runs -/

inductive SendOutcome
  | pending
  | answered
  | failed
deriving DecidableEq

/-- The status of the entry that a call has left, if it has left one. -/
def SendOutcome.mark : SendOutcome → Option MessageStatus
  | .pending => some .sending
  | .failed => some .failed
  | .answered => none

structure SendCall where
  draft : MessageDraft
  outcome : SendOutcome

/-- `calls` has the calls of `sendMessage` by their generated ids, `posts` the posts the server made of them
(by a post's id, its call), `others` the other posts of which an event came, `used` the client ids of drafts
and events. -/
structure SendRun where
  store : Store
  calls : Assoc String SendCall
  posts : Assoc String String
  others : List String
  used : List String

inductive SendInput
  | send (draft : MessageDraft) (clientId : String)
  | accept (clientId id : String)
  | answer (clientId id userId : String)
  | fail (clientId : String)
  | posted (post : WsPost)

namespace SendRun

def empty : SendRun := ⟨fun _ => [], ∅, ∅, [], []⟩

def matchesCall (s : SendRun) (post : WsPost) : Bool :=
  ((s.posts.lookup post.id).bind s.calls.lookup).all fun call =>
    decide (post.channelId = call.draft.channelId ∧ post.rootId.map MessageId.server = call.draft.rootId)

/-- Generated ids and ids of posts are fresh, and no event has a generated id, which is never sent. A
request whose answer is lost may be sent again (`withRetry`) and then be accepted more than once. -/
def step (s : SendRun) : SendInput → Option SendRun
  | .send draft clientId =>
    if clientId ∈ s.calls ∨ clientId ∈ s.used then none
    else some { s with
      store := sendMessage s.store draft clientId
      calls := s.calls.insert clientId ⟨draft, .pending⟩
      used := draft.clientId.toList ++ s.used }
  | .accept clientId id =>
    match s.calls.lookup clientId with
    | some ⟨_, .pending⟩ =>
      if id ∈ s.posts ∨ id ∈ s.others then none else some { s with posts := s.posts.insert id clientId }
    | _ => none
  | .answer clientId id userId =>
    match s.calls.lookup clientId with
    | some ⟨draft, .pending⟩ =>
      if s.posts.lookup id = some clientId then
        some { s with
          store := sendAnswered s.store draft clientId (postToMessage (createPost id userId (createPayload draft)))
          calls := s.calls.insert clientId ⟨draft, .answered⟩ }
      else none
    | _ => none
  | .fail clientId =>
    match s.calls.lookup clientId with
    | some ⟨draft, .pending⟩ =>
      some { s with
        store := sendFailed s.store draft clientId
        calls := s.calls.insert clientId ⟨draft, .failed⟩ }
    | _ => none
  | .posted post =>
    if (∃ clientId ∈ post.clientMsgId, clientId ∈ s.calls) ∨ ¬ s.matchesCall post then none
    else some { s with
      store := handleIncomingMessage s.store (normalizePost post)
      others := if post.id ∈ s.posts then s.others else post.id :: s.others
      used := post.clientMsgId.toList ++ s.used }

def Quiet (s : SendRun) : Prop :=
  ∀ clientId call, s.calls.lookup clientId = some call → call.outcome ≠ .pending

/-- Every post has one entry in all the lists, which is delivered, every failed message has a failed entry,
and no entry is being sent. -/
structure Settled (s : SendRun) : Prop where
  once : ∀ id ∈ s.posts, ∃ key, held s.store key (.server id) = 1 ∧ (∀ key' ≠ key, held s.store key' (.server id) = 0) ∧
    ∀ m ∈ s.store key, m.id = .server id → m.status = .delivered
  failed : ∀ clientId draft, s.calls.lookup clientId = some ⟨draft, .failed⟩ →
    ∃ key, ∃ m ∈ s.store key, m.id = .temp clientId ∧ m.status = .failed
  sent : ∀ key, ∀ m ∈ s.store key, m.status ≠ .sending

/-- The store has the post `id`. -/
def Present (s : SendRun) (id : String) : Prop := ∃ key, 0 < held s.store key (.server id)

/-- The condition on a step. An answer comes before the events of its post, but after the events of other
posts that the server made of the same call, and its client id is not the generated one of a message that
is still sent. What fails is no reply, and nothing is missing that the server made of it. An entry of another
post that has the client id of an event is of nobody who sends here, and the event, if it is of a message sent
from here, is of a root that the store does not have. A sent reply has no event when the store has it. -/
def InOrder (s : SendRun) : SendInput → Prop
  | .send _ _ => True
  | .accept _ _ => True
  | .answer clientId id _ => ¬ s.Present id ∧
      (∀ id', s.posts.lookup id' = some clientId → id' ≠ id → s.Present id') ∧
      ∀ draft outcome, s.calls.lookup clientId = some ⟨draft, outcome⟩ → ∀ other, draft.clientId = some other →
        other ≠ clientId → ∀ draft', s.calls.lookup other ≠ some ⟨draft', .pending⟩
  | .fail clientId => (∀ draft outcome, s.calls.lookup clientId = some ⟨draft, outcome⟩ → draft.rootId = none) ∧
      ∀ id, s.posts.lookup id = some clientId → s.Present id
  | .posted post => (∀ clientId m, post.clientMsgId = some clientId →
      s.store.findMessageByClientId post.channelId clientId = some m → m.id ≠ .server post.id →
        (∀ id, m.id = .server id → id ∉ s.posts) ∧
          (post.id ∈ s.posts → post.rootId = none ∧ ¬ s.Present post.id)) ∧
      (post.id ∈ s.posts → post.rootId ≠ none → ¬ s.Present post.id)

/-- What holds of the lists at all times: a call's entry is there until the answer, and a post of a call is
at most once in the list it belongs in. -/
structure Kept (s : SendRun) : Prop where
  drafts : ∀ c call, s.calls.lookup c = some call → ∀ x, call.draft.clientId = some x → x ∈ s.used
  called : ∀ id c, s.posts.lookup id = some c → c ∈ s.calls
  temp : ∀ key, ∀ m ∈ s.store key, ∀ c, m.id = .temp c →
    m.clientId = some c ∧ ∃ call, s.calls.lookup c = some call ∧ call.outcome.mark = some m.status
  server : ∀ key, ∀ m ∈ s.store key, ∀ id, m.id = .server id → m.status = .delivered ∧ (id ∈ s.posts ∨ id ∈ s.others) ∧
    ∀ c, m.clientId = some c → c ∈ s.used ∧ ∀ draft, s.calls.lookup c ≠ some ⟨draft, .pending⟩
  shown : ∀ c call, s.calls.lookup c = some call → ∀ key, held s.store key (.temp c) =
    if key = home call.draft.channelId call.draft.rootId ∧ call.outcome ≠ .answered then 1 else 0
  own : ∀ id c call, s.posts.lookup id = some c → s.calls.lookup c = some call → ∀ key,
    held s.store key (.server id) ≤ if key = home call.draft.channelId call.draft.rootId then 1 else 0
  ended : ∀ id c call, s.posts.lookup id = some c → s.calls.lookup c = some call →
    call.outcome ≠ .pending → s.Present id

theorem kept_empty : empty.Kept := by
  constructor <;> intros <;> simp_all [empty]

variable {s s' : SendRun}

theorem Kept.settled (h : s.Kept) (hq : s.Quiet) : s.Settled where
  once id hid := by
    obtain ⟨c, hc⟩ := Option.isSome_iff_exists.1 (AList.lookup_isSome.2 hid)
    obtain ⟨call, hcall⟩ := Option.isSome_iff_exists.1 (AList.lookup_isSome.2 (h.called id c hc))
    have hown := h.own id c call hc hcall
    obtain ⟨key, hpos⟩ := h.ended id c call hc hcall (hq c call hcall)
    have hkey : key = home call.draft.channelId call.draft.rootId := by
      by_contra hne
      have hle := hown key
      rw [if_neg hne] at hle
      omega
    refine ⟨key, ?_, fun key' hne => ?_, fun m hm hid' => (h.server key m hm id hid').1⟩
    · have hle := hown key
      rw [if_pos hkey] at hle
      omega
    · have hle := hown key'
      rw [if_neg (hkey ▸ hne)] at hle
      omega
  failed c draft hc := by
    have hone := h.shown c _ hc (home draft.channelId draft.rootId)
    rw [if_pos ⟨rfl, by simp⟩] at hone
    obtain ⟨m, hm, hid⟩ := held_pos.1 (hone ▸ Nat.one_pos)
    obtain ⟨-, call, hcall, hmark⟩ := h.temp _ m hm c hid
    obtain rfl := Option.some.inj (hc.symm.trans hcall)
    exact ⟨_, m, hm, hid, (Option.some.inj hmark).symm⟩
  sent key m hm hs := by
    cases hid : m.id with
    | temp c =>
      obtain ⟨-, call, hcall, hmark⟩ := h.temp key m hm c hid
      have hp := hq c call hcall
      rw [hs] at hmark
      cases ho : call.outcome <;> simp_all [SendOutcome.mark]
    | server id =>
      have hd := (h.server key m hm id hid).1
      rw [hs] at hd
      cases hd

/-! ### What a step keeps -/

variable {c id userId : String} {draft : MessageDraft} {post : WsPost} {message m : Message}

theorem Kept.called_lookup (h : s.Kept) (hid : s.posts.lookup id = some c) :
    ∃ call, s.calls.lookup c = some call :=
  Option.isSome_iff_exists.1 (AList.lookup_isSome.2 (h.called id c hid))

theorem Kept.not_shown (h : s.Kept) (hc : c ∉ s.calls) (key : ListKey) : held s.store key (.temp c) = 0 := by
  by_contra hne
  obtain ⟨m, hm, hid⟩ := held_pos.1 (Nat.pos_of_ne_zero hne)
  obtain ⟨-, call, hcall, -⟩ := h.temp key m hm c hid
  exact hc (AList.lookup_isSome.1 (by rw [hcall]; rfl))

theorem Kept.not_held (h : s.Kept) (hp : id ∉ s.posts) (ho : id ∉ s.others) (key : ListKey) :
    held s.store key (.server id) = 0 := by
  by_contra hne
  obtain ⟨m, hm, hid⟩ := held_pos.1 (Nat.pos_of_ne_zero hne)
  rcases (h.server key m hm id hid).2.1 with h' | h'
  · exact hp h'
  · exact ho h'

theorem Kept.find_pending (h : s.Kept) (hc : s.calls.lookup c = some ⟨draft, .pending⟩) :
    (∃ m, (s.store (home draft.channelId draft.rootId)).find? (fun m => m.clientId = some c) = some m ∧ m.id = .temp c) ∧
      ∀ key ≠ home draft.channelId draft.rootId, (s.store key).find? (fun m => m.clientId = some c) = none := by
  have hid : ∀ key, ∀ m ∈ s.store key, m.clientId = some c → m.id = .temp c := by
    intro key m hm hclient
    cases hid : m.id with
    | temp c' =>
      obtain ⟨hclient', -⟩ := h.temp key m hm c' hid
      rw [Option.some.inj (hclient'.symm.trans hclient)]
    | server id => exact absurd hc ((h.server key m hm id hid).2.2 c hclient |>.2 draft)
  have hshown := h.shown c _ hc
  constructor
  · have hone := hshown (home draft.channelId draft.rootId)
    rw [if_pos ⟨rfl, by simp⟩] at hone
    obtain ⟨m, hm, hmid⟩ := held_pos.1 (hone ▸ Nat.one_pos)
    have hfound : ((s.store (home draft.channelId draft.rootId)).find? fun m => m.clientId = some c).isSome = true :=
      List.find?_isSome.2 ⟨m, hm, by simpa using (h.temp _ m hm c hmid).1⟩
    obtain ⟨m', hm'⟩ := Option.isSome_iff_exists.1 hfound
    exact ⟨m', hm', hid _ m' (List.mem_of_find?_eq_some hm') (by simpa using List.find?_some hm')⟩
  · intro key hne
    rw [List.find?_eq_none]
    intro m hm hclient
    have hzero := hshown key
    rw [if_neg fun h => hne h.1] at hzero
    have hpos := held_pos.2 ⟨m, hm, hid key m hm (by simpa using hclient)⟩
    omega

theorem Kept.send (h : s.Kept) (hcalls : c ∉ s.calls) (hused : c ∉ s.used) :
    Kept { s with
      store := sendMessage s.store draft c
      calls := s.calls.insert c ⟨draft, .pending⟩
      used := draft.clientId.toList ++ s.used } := by
  have hch : Changes s.store (home draft.channelId draft.rootId) none (createOptimisticMessage draft c)
      (sendMessage s.store draft c) := sendMessage_changes
  have hold : ∀ c' call, s.calls.lookup c' = some call → c' ≠ c := by
    rintro c' call hc' rfl
    exact hcalls (AList.lookup_isSome.1 (by rw [hc']; rfl))
  have hserver : ∀ key id, held (sendMessage s.store draft c) key (.server id) = held s.store key (.server id) :=
    fun key id => hch.held_of_ne (fun _ hm => by cases hm) (by simp [createOptimisticMessage]) key
  constructor
  · intro c' call hc' x hx
    rcases Assoc.lookup_insert_cases hc' with ⟨-, rfl⟩ | ⟨-, hc'⟩
    · simp [show draft.clientId = some x from hx]
    · exact List.mem_append_right _ (h.drafts c' call hc' x hx)
  · intro id c' hc'
    exact AList.mem_insert _ |>.2 (.inr (h.called id c' hc'))
  · intro key m hm c' hid
    rcases hch.mem_cases hm with ⟨-, rfl⟩ | hm
    · obtain rfl : c = c' := by simpa [createOptimisticMessage] using hid
      exact ⟨rfl, _, Assoc.lookup_insert_self, rfl⟩
    · obtain ⟨hclient, call, hcall, hmark⟩ := h.temp key m hm c' hid
      exact ⟨hclient, call, by rw [Assoc.lookup_insert_eq, if_neg (hold c' call hcall), hcall], hmark⟩
  · intro key m hm id hid
    rcases hch.mem_cases hm with ⟨-, rfl⟩ | hm
    · simp [createOptimisticMessage] at hid
    · obtain ⟨hd, hown, hclient⟩ := h.server key m hm id hid
      refine ⟨hd, hown, fun c' hc' => ⟨List.mem_append_right _ (hclient c' hc').1, fun draft' hp => ?_⟩⟩
      rcases Assoc.lookup_insert_cases hp with ⟨rfl, -⟩ | ⟨-, hp⟩
      · exact hused (hclient c' hc').1
      · exact (hclient c' hc').2 draft' hp
  · intro c' call hc' key
    rcases Assoc.lookup_insert_cases hc' with ⟨rfl, rfl⟩ | ⟨hne, hc'⟩
    · have hid : (createOptimisticMessage draft c').id = .temp c' := rfl
      rw [hch.held_of_new (fun _ hm => by cases hm) hid, h.not_shown hcalls]
      simp
    · rw [hch.held_of_ne (fun _ hm => by cases hm) (by simpa [createOptimisticMessage] using hne.symm)]
      exact h.shown c' call hc' key
  · intro id c' call hid hc' key
    obtain ⟨call', hcall'⟩ := h.called_lookup hid
    rcases Assoc.lookup_insert_cases hc' with ⟨rfl, -⟩ | ⟨-, hc'⟩
    · exact absurd rfl (hold _ call' hcall')
    · rw [hserver]
      exact h.own id c' call hid hc' key
  · intro id c' call hid hc' hne
    obtain ⟨call', hcall'⟩ := h.called_lookup hid
    rcases Assoc.lookup_insert_cases hc' with ⟨rfl, -⟩ | ⟨-, hc'⟩
    · exact absurd rfl (hold _ call' hcall')
    · obtain ⟨key, hpos⟩ := h.ended id c' call hid hc' hne
      exact ⟨key, by rw [hserver]; exact hpos⟩

theorem Kept.accept (h : s.Kept) (hc : s.calls.lookup c = some ⟨draft, .pending⟩) (hp : id ∉ s.posts)
    (ho : id ∉ s.others) : Kept { s with posts := s.posts.insert id c } where
  drafts := h.drafts
  called id' c' hid' := by
    rcases Assoc.lookup_insert_cases hid' with ⟨-, rfl⟩ | ⟨-, hid'⟩
    · exact AList.lookup_isSome.1 (by rw [hc]; rfl)
    · exact h.called id' c' hid'
  temp := h.temp
  server key m hm id' hid' := by
    obtain ⟨hd, hown, hclient⟩ := h.server key m hm id' hid'
    exact ⟨hd, hown.imp_left fun hin => AList.mem_insert _ |>.2 (.inr hin), hclient⟩
  shown := h.shown
  own id' c' call hid' hc' key := by
    rcases Assoc.lookup_insert_cases hid' with ⟨rfl, -⟩ | ⟨-, hid'⟩
    · rw [h.not_held hp ho]
      exact Nat.zero_le _
    · exact h.own id' c' call hid' hc' key
  ended id' c' call hid' hc' hne := by
    rcases Assoc.lookup_insert_cases hid' with ⟨-, rfl⟩ | ⟨-, hid'⟩
    · obtain rfl := Option.some.inj (hc.symm.trans hc')
      exact absurd rfl hne
    · exact h.ended id' c' call hid' hc' hne

theorem lookup_ended (hc : s.calls.lookup c = some ⟨draft, .pending⟩) {c' : String} {outcome : SendOutcome} {call : SendCall}
    (h : (s.calls.insert c ⟨draft, outcome⟩).lookup c' = some call) :
    ∃ call₀, s.calls.lookup c' = some call₀ ∧ call.draft = call₀.draft ∧ (c' ≠ c → call = call₀) := by
  rcases Assoc.lookup_insert_cases h with ⟨rfl, rfl⟩ | ⟨-, h⟩
  · exact ⟨_, hc, rfl, fun hne => absurd rfl hne⟩
  · exact ⟨call, h, rfl, fun _ => rfl⟩

theorem not_pending_ended {x : String} {outcome : SendOutcome} (ho : outcome ≠ .pending)
    (hx : x ≠ c → ∀ draft', s.calls.lookup x ≠ some ⟨draft', .pending⟩) (draft' : MessageDraft) :
    (s.calls.insert c ⟨draft, outcome⟩).lookup x ≠ some ⟨draft', .pending⟩ := by
  intro hl
  rcases Assoc.lookup_insert_cases hl with ⟨-, hl⟩ | ⟨hne, hl⟩
  · exact ho (congrArg SendCall.outcome hl)
  · exact hx hne draft' hl

theorem Kept.answer_lists (h : s.Kept) (hc : s.calls.lookup c = some ⟨draft, .pending⟩) (habsent : ¬ s.Present id)
    (hmsg : message.id = .server id) :
    (∀ key, ∀ m ∈ sendAnswered s.store draft c message key, m = message ∨ m ∈ s.store key) ∧
      (∀ key, held (sendAnswered s.store draft c message) key (.temp c) = 0) ∧
      (∀ key, held (sendAnswered s.store draft c message) key (.server id) =
        if key = home draft.channelId draft.rootId then 1 else 0) ∧
      ∀ key id', id' ≠ .temp c → id' ≠ .server id →
        held (sendAnswered s.store draft c message) key id' = held s.store key id' := by
  obtain ⟨⟨m, hm, hmid⟩, hno⟩ := h.find_pending hc
  have hch : Changes s.store (home draft.channelId draft.rootId) (some m) message (sendAnswered s.store draft c message) := by
    refine sendAnswered_changes hm fun hroot => hno _ ?_
    obtain ⟨rootId, hroot⟩ := Option.ne_none_iff_exists'.1 hroot
    simp [hroot, home]
  refine ⟨fun key m' hm' => (hch.mem_cases hm').imp_left And.right, fun key => ?_, fun key => ?_,
    fun key id' ht hs => ?_⟩
  · have hg := hch.held_of_gone hmid (by simp [hmsg]) key
    have hs := h.shown c _ hc key
    by_cases hk : key = home draft.channelId draft.rootId <;> simp [hk] at hg hs ⊢ <;> omega
  · rw [hch.held_of_new (fun m' hm' => by cases hm'; simp [hmid]) hmsg]
    have hz : held s.store key (.server id) = 0 := Nat.eq_zero_of_not_pos fun hp => habsent ⟨key, hp⟩
    omega
  · exact hch.held_of_ne (fun m' hm' => by cases hm'; exact fun h => ht (h.symm.trans hmid)) (fun h => hs (h.symm.trans hmsg)) key

theorem Kept.answer (h : s.Kept) (hc : s.calls.lookup c = some ⟨draft, .pending⟩) (hid : s.posts.lookup id = some c)
    (hin : s.InOrder (.answer c id userId)) :
    Kept { s with
      store := sendAnswered s.store draft c (postToMessage (createPost id userId (createPayload draft)))
      calls := s.calls.insert c ⟨draft, .answered⟩ } := by
  obtain ⟨habsent, hothers, hclient⟩ := hin
  have hmsg : (postToMessage (createPost id userId (createPayload draft))).id = .server id := rfl
  obtain ⟨hmem, hgone, hnew, hsame⟩ := h.answer_lists hc habsent hmsg
  generalize sendAnswered s.store draft c (postToMessage (createPost id userId (createPayload draft))) = store at hmem hgone hnew hsame ⊢
  constructor
  · intro c' call hc' x hx
    obtain ⟨call₀, hc₀, hdraft, -⟩ := lookup_ended hc hc'
    exact h.drafts c' call₀ hc₀ x (hdraft ▸ hx)
  · intro id' c' hid'
    exact AList.mem_insert _ |>.2 (.inr (h.called id' c' hid'))
  · intro key m' hm' c' hid'
    rcases hmem key m' hm' with rfl | hold
    · cases hmsg.symm.trans hid'
    · have hne : c' ≠ c := by
        rintro rfl
        have hpos := held_pos.2 ⟨m', hm', hid'⟩
        rw [hgone] at hpos
        exact absurd hpos (Nat.lt_irrefl 0)
      rw [Assoc.lookup_insert_eq, if_neg hne]
      exact h.temp key m' hold c' hid'
  · intro key m' hm' id' hid'
    rcases hmem key m' hm' with rfl | hold
    · obtain rfl : id = id' := MessageId.server.inj (hmsg.symm.trans hid')
      exact ⟨rfl, .inl (AList.lookup_isSome.1 (by rw [hid]; rfl)),
        fun x hx => ⟨h.drafts c _ hc x hx, not_pending_ended nofun (hclient draft _ hc x hx)⟩⟩
    · obtain ⟨hd, hown, hx⟩ := h.server key m' hold id' hid'
      exact ⟨hd, hown, fun x hcx => ⟨(hx x hcx).1, not_pending_ended nofun fun _ => (hx x hcx).2⟩⟩
  · intro c' call hc' key
    rcases Assoc.lookup_insert_cases hc' with ⟨rfl, rfl⟩ | ⟨hne, hc'⟩
    · rw [hgone]
      simp
    · rw [hsame key _ (by simpa using hne) (by simp)]
      exact h.shown c' call hc' key
  · intro id' c' call hid' hc' key
    obtain ⟨call₀, hc₀, hdraft, -⟩ := lookup_ended hc hc'
    by_cases hne : id' = id
    · subst hne
      obtain rfl : c' = c := Option.some.inj (hid'.symm.trans hid)
      obtain rfl := Option.some.inj (hc.symm.trans hc₀)
      rw [hdraft]
      exact Nat.le_of_eq (hnew key)
    · rw [hsame key _ (by simp) (by simpa using hne), hdraft]
      exact h.own id' c' call₀ hid' hc₀ key
  · intro id' c' call hid' hc' hended
    by_cases hne : id' = id
    · subst hne
      refine ⟨home draft.channelId draft.rootId, ?_⟩
      rw [hnew, if_pos rfl]
      exact Nat.one_pos
    · have hpres : s.Present id' := by
        rcases Assoc.lookup_insert_cases hc' with ⟨rfl, -⟩ | ⟨-, hc'⟩
        · exact hothers id' hid' hne
        · exact h.ended id' c' call hid' hc' hended
      obtain ⟨key, hpos⟩ := hpres
      exact ⟨key, by rw [hsame key _ (by simp) (by simpa using hne)]; exact hpos⟩

theorem Kept.not_sending (h : s.Kept) (hc : s.calls.lookup c = some ⟨draft, .pending⟩)
    (hm : m ∈ s.store (home draft.channelId draft.rootId)) (hmid : m.id = .temp c) {store : Store}
    (hch : Changes s.store (home draft.channelId draft.rootId) (some m) { m with status := .failed } store)
    {key : ListKey} {m' : Message} (hm' : m' ∈ store key) (hid' : m'.id = .temp c) :
    m'.status ≠ .sending := by
  intro hstatus
  have hshown := h.shown c _ hc
  by_cases hk : key = home draft.channelId draft.rootId
  · subst hk
    have hcount := hch.count fun m' => m'.id = .temp c ∧ m'.status = .sending
    have hle : (s.store (home draft.channelId draft.rootId)).countP (fun m' => m'.id = .temp c ∧ m'.status = .sending) ≤ 1 := by
      have hone := hshown (home draft.channelId draft.rootId)
      rw [if_pos ⟨rfl, by simp⟩] at hone
      rw [← hone]
      exact List.countP_mono_left fun m' _ hq => by
        simp only [decide_eq_true_eq] at hq ⊢
        exact hq.1
    have hpos : 0 < (store (home draft.channelId draft.rootId)).countP fun m' => m'.id = .temp c ∧
      m'.status = .sending :=
      List.countP_pos_iff.2 ⟨m', hm', by simp [hid', hstatus]⟩
    have hold : m.status = .sending := by
      obtain ⟨-, call, hcall, hmark⟩ := h.temp _ m hm c hmid
      obtain rfl := Option.some.inj (hc.symm.trans hcall)
      exact (Option.some.inj hmark).symm
    rw [Option.elim_some, if_pos (by simp [hmid, hold]), if_neg (by simp)] at hcount
    omega
  · have hpos := held_pos.2 ⟨m', hm', hid'⟩
    rw [hch.held_of_same rfl, hshown key, if_neg fun h => hk h.1] at hpos
    exact absurd hpos (Nat.lt_irrefl 0)

theorem Kept.fail (h : s.Kept) (hc : s.calls.lookup c = some ⟨draft, .pending⟩) (hin : s.InOrder (.fail c)) :
    Kept { s with store := sendFailed s.store draft c, calls := s.calls.insert c ⟨draft, .failed⟩ } := by
  obtain ⟨hroot, hpresent⟩ := hin
  obtain ⟨⟨m, hm, hmid⟩, -⟩ := h.find_pending hc
  have hch := sendFailed_changes (hroot draft _ hc) hm
  have hmem := List.mem_of_find?_eq_some hm
  obtain ⟨hmclient, -⟩ := h.temp _ m hmem c hmid
  generalize sendFailed s.store draft c = store at hch ⊢
  have hsame : ∀ key id', held store key id' = held s.store key id' :=
    fun key id' => hch.held_of_same rfl key id'
  constructor
  · intro c' call hc' x hx
    obtain ⟨call₀, hc₀, hdraft, -⟩ := lookup_ended hc hc'
    exact h.drafts c' call₀ hc₀ x (hdraft ▸ hx)
  · intro id' c' hid'
    exact AList.mem_insert _ |>.2 (.inr (h.called id' c' hid'))
  · intro key m' hm' c' hid'
    rcases hch.mem_cases hm' with ⟨-, rfl⟩ | hold
    · obtain rfl : c = c' := MessageId.temp.inj (hmid.symm.trans hid')
      exact ⟨hmclient, _, Assoc.lookup_insert_self, rfl⟩
    · obtain ⟨hclient, call, hcall, hmark⟩ := h.temp key m' hold c' hid'
      by_cases hne : c' = c
      · subst hne
        obtain rfl := Option.some.inj (hc.symm.trans hcall)
        exact absurd (Option.some.inj hmark).symm (h.not_sending hc hmem hmid hch hm' hid')
      · exact ⟨hclient, call, by rw [Assoc.lookup_insert_eq, if_neg hne, hcall], hmark⟩
  · intro key m' hm' id' hid'
    rcases hch.mem_cases hm' with ⟨-, rfl⟩ | hold
    · cases hmid.symm.trans hid'
    · obtain ⟨hd, hown, hx⟩ := h.server key m' hold id' hid'
      exact ⟨hd, hown, fun x hcx => ⟨(hx x hcx).1, not_pending_ended nofun fun _ => (hx x hcx).2⟩⟩
  · intro c' call hc' key
    rw [hsame]
    rcases Assoc.lookup_insert_cases hc' with ⟨rfl, rfl⟩ | ⟨-, hc'⟩
    · rw [h.shown c' _ hc key]
      simp
    · exact h.shown c' call hc' key
  · intro id' c' call hid' hc' key
    obtain ⟨call₀, hc₀, hdraft, -⟩ := lookup_ended hc hc'
    rw [hsame, hdraft]
    exact h.own id' c' call₀ hid' hc₀ key
  · intro id' c' call hid' hc' hended
    simp only [Present, hsame]
    rcases Assoc.lookup_insert_cases hc' with ⟨rfl, -⟩ | ⟨-, hc'⟩
    · exact hpresent id' hid'
    · exact h.ended id' c' call hid' hc' hended

/-- Of the ids that matter, only that of the event's post can come, into the list it belongs in. -/
theorem Kept.posted_lists (h : s.Kept) (hcalls : ∀ c, post.clientMsgId = some c → c ∉ s.calls)
    (hmatch : s.matchesCall post = true) (hin : s.InOrder (.posted post)) {store : Store}
    (hstore : handleIncomingMessage s.store (normalizePost post) = store) :
    (∀ key, ∀ m ∈ store key, m = normalizePost post ∨ m ∈ s.store key) ∧
      (∀ key c, held store key (.temp c) = held s.store key (.temp c)) ∧
      ∀ id ∈ s.posts, (∀ key, held store key (.server id) = held s.store key (.server id)) ∨
        (id = post.id ∧ ¬ s.Present id ∧ ∀ key, held store key (.server id) =
          held s.store key (.server id) + if key = home post.channelId (post.rootId.map .server) then 1 else 0) := by
  obtain ⟨hfound, hreply⟩ := hin
  have hmsg : (normalizePost post).id = .server post.id := rfl
  have hcases := handleIncomingMessage_cases s.store (normalizePost post)
  rw [hstore] at hcases
  obtain ⟨c, m, hclient, hm, hch⟩ | ⟨-, hupdate⟩ | ⟨hnone, hch⟩ := hcases
  · refine ⟨fun key m hm => (hch.mem_cases hm).imp_left And.right, ?_⟩
    by_cases hsame : m.id = .server post.id
    · exact ⟨fun key c => hch.held_of_same hsame key _,
        fun id _ => .inl fun key => hch.held_of_same hsame key _⟩
    · obtain ⟨hentry, hpost⟩ := hfound c m hclient hm hsame
      have hmem := List.mem_of_find?_eq_some hm
      have hmc : m.clientId = some c := by simpa using List.find?_some hm
      refine ⟨fun key c' => hch.held_of_ne (fun m' hm' => ?_) (by simp [hmsg]) key, fun id hid => ?_⟩
      · obtain rfl : m = m' := Option.some.inj hm'
        intro hid
        obtain ⟨hmc', call, hcall, -⟩ := h.temp _ m hmem c' hid
        obtain rfl : c = c' := Option.some.inj (hmc.symm.trans hmc')
        exact hcalls c hclient (AList.lookup_isSome.1 (by rw [hcall]; rfl))
      · have hold : ∀ m', some m = some m' → m'.id ≠ .server id := by
          rintro m' hm' heq
          obtain rfl : m = m' := Option.some.inj hm'
          exact hentry id heq hid
        by_cases hne : id = post.id
        · subst hne
          obtain ⟨hroot, habsent⟩ := hpost hid
          rw [hroot]
          exact .inr ⟨rfl, habsent, fun key => hch.held_of_new hold hmsg key⟩
        · exact .inl fun key => hch.held_of_ne hold (fun heq => hne (MessageId.server.inj (heq.symm.trans hmsg))) key
  · subst hupdate
    have hsame := updateMessage_same s.store (normalizePost post)
    exact ⟨fun key => (hsame key).2, fun key c => (hsame key).1 _,
      fun id _ => .inl fun key => (hsame key).1 _⟩
  · refine ⟨fun key m hm => (hch.mem_cases hm).imp_left And.right, fun key c =>
      hch.held_of_ne (fun _ hm => by cases hm) (by simp [hmsg]) key, fun id hid => ?_⟩
    by_cases hne : id = post.id
    · subst hne
      refine .inr ⟨rfl, ?_, fun key => hch.held_of_new (fun _ hm => by cases hm) hmsg key⟩
      by_cases hroot : post.rootId = none
      · rintro ⟨key, hpos⟩
        obtain ⟨c, hc⟩ := Option.isSome_iff_exists.1 (AList.lookup_isSome.2 hid)
        obtain ⟨call, hcall⟩ := h.called_lookup hc
        have hlike : post.channelId = call.draft.channelId ∧
          post.rootId.map MessageId.server = call.draft.rootId := by
          simpa [matchesCall, hc, hcall] using hmatch
        have hle := h.own post.id c call hc hcall key
        by_cases hk : key = home call.draft.channelId call.draft.rootId
        · rw [hk, ← hlike.1, ← hlike.2, hroot] at hpos
          obtain ⟨m, hm, hmid⟩ := held_pos.1 hpos
          exact hnone m hm hmid
        · rw [if_neg hk] at hle
          omega
      · exact hreply hid hroot
    · exact .inl fun key => hch.held_of_ne (fun _ hm => by cases hm) (fun heq => hne (MessageId.server.inj (heq.symm.trans hmsg))) key

theorem Kept.posted (h : s.Kept) (hcalls : ∀ c, post.clientMsgId = some c → c ∉ s.calls)
    (hmatch : s.matchesCall post = true) (hin : s.InOrder (.posted post)) :
    Kept { s with
      store := handleIncomingMessage s.store (normalizePost post)
      others := if post.id ∈ s.posts then s.others else post.id :: s.others
      used := post.clientMsgId.toList ++ s.used } := by
  have hmsg : (normalizePost post).id = .server post.id := rfl
  obtain ⟨hmem, htemp, hown⟩ := h.posted_lists hcalls hmatch hin rfl
  generalize handleIncomingMessage s.store (normalizePost post) = store at hmem htemp hown ⊢
  constructor
  · intro c call hc x hx
    exact List.mem_append_right _ (h.drafts c call hc x hx)
  · exact h.called
  · intro key m hm c hid
    rcases hmem key m hm with rfl | hm
    · rw [hmsg] at hid
      cases hid
    · exact h.temp key m hm c hid
  · intro key m hm id hid
    rcases hmem key m hm with rfl | hm
    · obtain rfl : post.id = id := MessageId.server.inj (hmsg.symm.trans hid)
      refine ⟨rfl, ?_, fun c hclient => ⟨by simp [show post.clientMsgId = some c from hclient], fun draft hc => ?_⟩⟩
      · by_cases hp : post.id ∈ s.posts
        · exact .inl hp
        · right
          simp [hp]
      · exact hcalls c hclient (AList.lookup_isSome.1 (by rw [hc]; rfl))
    · obtain ⟨hd, hknown, hclient⟩ := h.server key m hm id hid
      refine ⟨hd, hknown.imp_right fun ho => ?_,
        fun c hc => ⟨List.mem_append_right _ (hclient c hc).1, (hclient c hc).2⟩⟩
      split
      · exact ho
      · exact List.mem_cons_of_mem _ ho
  · intro c call hc key
    exact (htemp key c).trans (h.shown c call hc key)
  · intro id c call hid hc key
    rcases hown id (AList.lookup_isSome.1 (by rw [hid]; rfl)) with heq | ⟨rfl, habsent, hnew⟩
    · rw [heq]
      exact h.own id c call hid hc key
    · have hz : held s.store key (.server post.id) = 0 := Nat.eq_zero_of_not_pos fun hp => habsent ⟨key, hp⟩
      have hcall : post.channelId = call.draft.channelId ∧
        post.rootId.map MessageId.server = call.draft.rootId := by
        simpa [matchesCall, hid, show s.calls.lookup c = some call from hc] using hmatch
      rw [hnew, hz, hcall.1, hcall.2]
      exact Nat.le_of_eq (Nat.zero_add _)
  · intro id c call hid hc hne
    obtain ⟨key, hpos⟩ := h.ended id c call hid hc hne
    refine ⟨key, Nat.lt_of_lt_of_le hpos ?_⟩
    rcases hown id (AList.lookup_isSome.1 (by rw [hid]; rfl)) with heq | ⟨-, -, hnew⟩
    · exact Nat.le_of_eq (heq key).symm
    · rw [hnew]
      exact Nat.le_add_right _ _

theorem Kept.step (h : s.Kept) {input : SendInput} (hin : s.InOrder input) (hs : step s input = some s') :
    s'.Kept := by
  cases input with
  | send draft c =>
    simp only [SendRun.step] at hs
    split at hs
    · cases hs
    · rename_i hfresh
      rw [not_or] at hfresh
      cases hs
      exact h.send hfresh.1 hfresh.2
  | accept c id =>
    simp only [SendRun.step] at hs
    split at hs
    · rename_i draft hc
      split at hs
      · cases hs
      · rename_i hfresh
        rw [not_or] at hfresh
        cases hs
        exact h.accept hc hfresh.1 hfresh.2
    · cases hs
  | answer c id userId =>
    simp only [SendRun.step] at hs
    split at hs
    · rename_i draft hc
      split at hs
      · rename_i hid
        cases hs
        exact h.answer hc hid hin
      · cases hs
    · cases hs
  | fail c =>
    simp only [SendRun.step] at hs
    split at hs
    · rename_i draft hc
      cases hs
      exact h.fail hc hin
    · cases hs
  | posted post =>
    simp only [SendRun.step] at hs
    split at hs
    · cases hs
    · rename_i hok
      rw [not_or, Classical.not_not] at hok
      cases hs
      exact h.posted (fun c hc hin => hok.1 ⟨c, hc, hin⟩) hok.2 hin

/-- While all steps are in order, every message has its one entry whenever all calls have ended. -/
theorem settled_of_inOrder {inputs : List SendInput} (hin : Run.AllSteps SendRun.step InOrder empty inputs) :
    Run.AllStates SendRun.step (fun s => s.Quiet → s.Settled) empty inputs :=
  (Run.allStates_of_allSteps (fun _ _ _ h hin hs => h.step hin hs) kept_empty hin).mono fun _ h hq => h.settled hq

/-- A root is sent, accepted and answered. -/
theorem sent_root : Run.AllStates SendRun.step (fun s => s.Quiet → s.Settled) empty
    [.send ⟨"town", "hello", none, none⟩ "1-a", .accept "1-a" "p", .answer "1-a" "p" "ann"] := by
  refine settled_of_inOrder (Run.allSteps_cons.2 ⟨trivial, fun s₁ h₁ => ?_⟩)
  obtain rfl := Option.some.inj h₁
  refine Run.allSteps_cons.2 ⟨trivial, fun s₂ h₂ => ?_⟩
  obtain rfl := Option.some.inj h₂
  refine Run.allSteps_cons.2 ⟨⟨?_, ?_, ?_⟩, fun _ _ => Run.allSteps_nil⟩
  · rintro ⟨key, hpos⟩
    obtain ⟨m, hm, hid⟩ := held_pos.1 hpos
    have hch : Changes empty.store _ none _ (sendMessage empty.store ⟨"town", "hello", none, none⟩ "1-a") :=
      sendMessage_changes
    rcases hch.mem_cases hm with ⟨-, rfl⟩ | hm
    · cases hid
    · cases hm
  · intro id hid hne
    rcases Assoc.lookup_insert_cases hid with ⟨heq, -⟩ | ⟨-, hid⟩
    · exact absurd heq hne
    · cases hid
  · intro draft outcome hcall other hother
    rcases Assoc.lookup_insert_cases hcall with ⟨-, heq⟩ | ⟨hne, -⟩
    · cases heq
      cases hother
    · exact absurd rfl hne

/-- A reply that fails is still shown as being sent. -/
theorem failed_reply_sending : ¬ Run.AllStates SendRun.step (fun s => s.Quiet → s.Settled) empty
    [.send ⟨"town", "hello", some (.server "r"), none⟩ "1-a", .fail "1-a"] := by
  intro h
  have hs := h [_, _] [] rfl _ rfl ?_
  · exact hs.sent (.thread (.server "r")) _ (List.mem_singleton.2 rfl) rfl
  · intro c call hc
    rcases Assoc.lookup_insert_cases hc with ⟨-, rfl⟩ | ⟨hne, hc⟩
    · decide
    · rcases Assoc.lookup_insert_cases hc with ⟨heq, -⟩ | ⟨-, hc⟩
      · exact absurd heq hne
      · cases hc

end SendRun

end Rustchat
