import Rustchat.Lib.Run
import Rustchat.MessageStore

/-!
# Message lists while requests are in flight (`stores/messages.ts`, `sendMessage` of `useWebSocket.ts`)

Fetches, sends and events write the same lists, and the answer of a fetch comes after any number of other
steps: it puts a new array in the place of the channel's, or adds to the array that the channel had when it
was asked for. `MessageRun.Inv` is what holds in all states. The state of a failed message is left out.
-/

open FirstMatch (upsertFirst)

namespace Rustchat

open Client

/-- What an answer is put in front of: nothing (`fetchMessages`), the array that is the channel's, or one
that was when `fetchOlderMessages` was called. -/
inductive CurrentMessages
  | nothing
  | own
  | detached (messages : List Message)

/-- A call that waits for posts, and the posts that the server has read for it. -/
structure ListRequest where
  channelId : String
  before : Option String
  current : CurrentMessages
  posts : Option (List Post)

/-- A message sent from here. `pending` until the request ends, `arrived` once an event has brought its post. -/
structure Send where
  home : ListRef
  pending : Bool
  arrived : Bool

/-- Neither succeeded nor failed. -/
def Send.Live (send : Send) : Prop := send.pending ∧ ¬ send.arrived

/-- `posted` are the root posts, with their channel, and `deleted` the posts whose events have been handled; `used`
are the ids that have been seen. -/
structure MessageRun where
  client : State
  hasMoreOlderByChannel : Assoc String Bool
  loading : Bool
  requests : List ListRequest
  sends : Assoc String Send
  posted : List (String × String)
  deleted : List String
  used : List String

inductive MessageInput
  | fetchMessages (channelId : String)
  | fetchOlderMessages (channelId : String)
  | snapshot (n : ℕ) (posts : List Post)
  | assigned (n : ℕ)
  | listFailed (n : ℕ)
  | sendMessage (clientMsgId channelId userId content : String) (rootId : Option String)
  | answered (clientMsgId : String) (post : Post)
  | failed (clientMsgId : String)
  | posted (post : Post)
  | deleted (id : String)

namespace CurrentMessages

def messages (own : List Message) : CurrentMessages → List Message
  | .nothing => []
  | .own => own
  | .detached messages => messages

end CurrentMessages

namespace ListRequest

/-- The array that an answer puts in the place of the channel's, if it does. -/
def result (r : ListRequest) (own : List Message) (posts : List Post) : Option (List Message) :=
  match r.current with
  | .nothing => some (fetched posts)
  | _ => if fetched posts = [] then none else some (fetched posts ++ r.current.messages own)

/-- The channel gets a new array; the old one stays with the calls that were started with it. -/
def detach (channelId : String) (own : List Message) (r : ListRequest) : ListRequest :=
  match r.current with
  | .own => if r.channelId = channelId then { r with current := .detached own } else r
  | _ => r

end ListRequest

namespace MessageRun

def init (currentChannelId username : Option String) : MessageRun :=
  ⟨⟨∅, ∅, ∅, ∅, currentChannelId, username⟩, ∅, false, [], ∅, [], [], []⟩

def hasMoreOlder (s : MessageRun) (channelId : String) : Bool :=
  (s.hasMoreOlderByChannel.lookup channelId).getD true

def own (s : MessageRun) (channelId : String) : List Message := s.client.list (.channel channelId)

/-- `fetchMessages` up to its request. -/
def fetchMessages (s : MessageRun) (channelId : String) : MessageRun :=
  { s with requests := s.requests ++ [⟨channelId, none, .nothing, none⟩], loading := true }

/-- `fetchOlderMessages` up to its request. -/
def fetchOlderMessages (s : MessageRun) (channelId : String) : MessageRun :=
  if s.loading ∨ ¬ s.hasMoreOlder channelId then s
  else match s.own channelId with
    | [] => s.fetchMessages channelId
    | m :: _ => { s with requests := s.requests ++ [⟨channelId, some m.id, .own, none⟩], loading := true }

def assign (s : MessageRun) (channelId : String) (messages : List Message) : MessageRun :=
  { s with
    client := setMessages s.client channelId messages
    requests := s.requests.map (ListRequest.detach channelId (s.own channelId)) }

/-- The end of a call of either. -/
def assigned (s : MessageRun) (n : ℕ) (r : ListRequest) (posts : List Post) : MessageRun :=
  let ended : MessageRun := { s with
    requests := s.requests.eraseIdx n
    hasMoreOlderByChannel := s.hasMoreOlderByChannel.insert r.channelId (50 ≤ posts.length)
    loading := false }
  match r.result (s.own r.channelId) posts with
  | some messages => ended.assign r.channelId messages
  | none => ended

/-- A post that the server made: its id is not one that a client made. -/
def OfServer (s : MessageRun) (post : Post) : Prop := post.id ∉ s.sends

instance (s : MessageRun) (post : Post) : Decidable (s.OfServer post) := inferInstanceAs (Decidable (_ ∉ _))

def arrive (s : MessageRun) : Option String → Assoc String Send
  | some clientMsgId => Assoc.modify clientMsgId (fun send => { send with arrived := true }) s.sends
  | none => s.sends

/-- `answered` and `failed` end a send, `snapshot`, `assigned` and `listFailed` go on with a request for posts. -/
def step (s : MessageRun) : MessageInput → Option MessageRun
  | .fetchMessages channelId => some (s.fetchMessages channelId)
  | .fetchOlderMessages channelId => some (s.fetchOlderMessages channelId)
  | .snapshot n posts =>
    match s.requests[n]? with
    | some r =>
      if r.posts.isNone ∧ (posts.map Post.id).Nodup ∧ ∀ p ∈ posts, s.OfServer p then
        some { s with requests := s.requests.set n { r with posts := some posts }, used := posts.map Post.id ++ s.used }
      else none
    | none => none
  | .assigned n =>
    match s.requests[n]? with
    | some r => r.posts.map (s.assigned n r)
    | none => none
  | .listFailed n =>
    match s.requests[n]? with
    | some _ => some { s with requests := s.requests.eraseIdx n, loading := false }
    | none => none
  | .sendMessage clientMsgId channelId userId content rootId =>
    if clientMsgId ∈ s.used then none
    else
      let tempMsg := tempMessage clientMsgId channelId userId content rootId
      some { s with
        client := addOptimisticMessage s.client tempMsg
        sends := s.sends.insert clientMsgId ⟨tempMsg.home, true, false⟩
        used := clientMsgId :: s.used }
  | .answered clientMsgId post =>
    match s.sends.lookup clientMsgId with
    | some send =>
      if send.pending ∧ (postToMessage post).home = send.home ∧ post.clientMsgId = some clientMsgId ∧
        s.OfServer post then
        some { s with
          client := updateOptimisticMessage s.client clientMsgId (postToMessage post)
          sends := s.sends.insert clientMsgId { send with pending := false }
          used := post.id :: s.used }
      else none
    | none => none
  | .failed clientMsgId =>
    match s.sends.lookup clientMsgId with
    | some send => if send.pending then some { s with sends := s.sends.insert clientMsgId { send with pending := false } } else none
    | none => none
  | .posted post =>
    if s.OfServer post then
      let message := postToMessage post
      some { s with
        client := handleNewMessage s.client post
        sends := s.arrive post.clientMsgId
        posted := if message.rootId = none then (message.channelId, message.id) :: s.posted else s.posted
        used := post.id :: s.used }
    else none
  | .deleted id =>
    if id ∈ s.sends then none
    else some { s with client := handleMessageDelete s.client id, deleted := id :: s.deleted, used := id :: s.used }

variable {s s' : MessageRun} {input : MessageInput} {n : ℕ} {r r' : ListRequest} {ref : ListRef} {m message : Message}
  {posts : List Post} {post : Post} {c id channelId userId content : String} {rootId : Option String} {send : Send}

theorem step_snapshot (hs : step s (.snapshot n posts) = some s') : ∃ r, s.requests[n]? = some r ∧
    (posts.map Post.id).Nodup ∧ (∀ p ∈ posts, s.OfServer p) ∧
      s' = { s with requests := s.requests.set n { r with posts := some posts }, used := posts.map Post.id ++ s.used } := by
  simp only [step] at hs
  split at hs
  · rename_i r hn
    split at hs
    · rename_i hok
      exact ⟨r, hn, hok.2.1, hok.2.2, (Option.some.inj hs).symm⟩
    · cases hs
  · cases hs

theorem step_assigned (hs : step s (.assigned n) = some s') :
    ∃ r posts, s.requests[n]? = some r ∧ r.posts = some posts ∧ s' = s.assigned n r posts := by
  simp only [step] at hs
  split at hs
  · rename_i r hn
    obtain ⟨posts, hp, rfl⟩ := Option.map_eq_some_iff.1 hs
    exact ⟨r, posts, hn, hp, rfl⟩
  · cases hs

theorem step_listFailed (hs : step s (.listFailed n) = some s') :
    s' = { s with requests := s.requests.eraseIdx n, loading := false } := by
  simp only [step] at hs
  split at hs
  · exact (Option.some.inj hs).symm
  · cases hs

theorem step_sendMessage (hs : step s (.sendMessage c channelId userId content rootId) = some s') : c ∉ s.used ∧
    s' = { s with
      client := addOptimisticMessage s.client (tempMessage c channelId userId content rootId)
      sends := s.sends.insert c ⟨(tempMessage c channelId userId content rootId).home, true, false⟩
      used := c :: s.used } := by
  simp only [step] at hs
  split at hs
  · cases hs
  · exact ⟨‹_›, (Option.some.inj hs).symm⟩

theorem step_answered (hs : step s (.answered c post) = some s') : ∃ send, s.sends.lookup c = some send ∧
    (postToMessage post).home = send.home ∧ s.OfServer post ∧
      s' = { s with
        client := updateOptimisticMessage s.client c (postToMessage post)
        sends := s.sends.insert c { send with pending := false }
        used := post.id :: s.used } := by
  simp only [step] at hs
  split at hs
  · rename_i send hsend
    split at hs
    · rename_i hok
      exact ⟨send, hsend, hok.2.1, hok.2.2.2, (Option.some.inj hs).symm⟩
    · cases hs
  · cases hs

theorem step_failed (hs : step s (.failed c) = some s') : ∃ send, s.sends.lookup c = some send ∧
    s' = { s with sends := s.sends.insert c { send with pending := false } } := by
  simp only [step] at hs
  split at hs
  · rename_i send hsend
    split at hs
    · exact ⟨send, hsend, (Option.some.inj hs).symm⟩
    · cases hs
  · cases hs

theorem step_posted (hs : step s (.posted post) = some s') : s.OfServer post ∧
    s' = { s with
      client := handleNewMessage s.client post
      sends := s.arrive post.clientMsgId
      posted := if (postToMessage post).rootId = none then ((postToMessage post).channelId, post.id) :: s.posted
        else s.posted
      used := post.id :: s.used } := by
  simp only [step] at hs
  split at hs
  · exact ⟨‹_›, (Option.some.inj hs).symm⟩
  · cases hs

theorem step_deleted (hs : step s (.deleted id) = some s') : id ∉ s.sends ∧
    s' = { s with client := handleMessageDelete s.client id, deleted := id :: s.deleted, used := id :: s.used } := by
  simp only [step] at hs
  split at hs
  · cases hs
  · exact ⟨‹_›, (Option.some.inj hs).symm⟩

/-- The message is in a list, or in an array that was one. -/
def Held (s : MessageRun) (m : Message) : Prop :=
  (∃ ref, m ∈ s.client.list ref) ∨ ∃ r ∈ s.requests, m ∈ r.current.messages []

/-- A message with the id of one sent from here is the temporary one. -/
structure Entry (s : MessageRun) (m : Message) : Prop where
  used : m.id ∈ s.used
  temp (h : m.id ∈ s.sends) : m.clientMsgId = some m.id

structure Listing (s : MessageRun) (posts : List Post) : Prop where
  nodup : (posts.map Post.id).Nodup
  used (p : Post) (hp : p ∈ posts) : p.id ∈ s.used
  ofServer (p : Post) (hp : p ∈ posts) : s.OfServer p

structure Inv (s : MessageRun) : Prop where
  held (m : Message) (hm : s.Held m) : s.Entry m
  listing (r : ListRequest) (hr : r ∈ s.requests) (posts : List Post) (hp : r.posts = some posts) : s.Listing posts
  sends (c : String) (hc : c ∈ s.sends) : c ∈ s.used
  deleted (id : String) (hid : id ∈ s.deleted) : id ∈ s.used
  has (c : String) (send : Send) (hc : s.sends.lookup c = some send) : s.client.Has send.home

/-- Ids are only added, and the id of a new message has not been seen. -/
structure Grows (s s' : MessageRun) : Prop where
  used (id : String) (hid : id ∈ s.used) : id ∈ s'.used
  sends (c : String) (hc : c ∈ s'.sends) : c ∈ s.sends ∨ c ∉ s.used ∧ c ∈ s'.used
  deleted (id : String) (hid : id ∈ s'.deleted) : id ∈ s.deleted ∨ id ∈ s'.used

theorem Grows.not_mem_sends (h : s.Grows s') {id : String} (hid : id ∈ s.used) (hnot : id ∉ s.sends) :
    id ∉ s'.sends :=
  fun hc => (h.sends id hc).elim hnot fun hnew => hnew.1 hid

theorem Entry.grow (h : s.Entry m) (hgrows : s.Grows s') : s'.Entry m where
  used := hgrows.used _ h.used
  temp hc := (hgrows.sends _ hc).elim h.temp fun hnew => absurd h.used hnew.1

theorem Listing.grow (h : s.Listing posts) (hgrows : s.Grows s') : s'.Listing posts where
  nodup := h.nodup
  used p hp := hgrows.used _ (h.used p hp)
  ofServer p hp := hgrows.not_mem_sends (h.used p hp) (h.ofServer p hp)

theorem Inv.of_grows (h : s.Inv) (hgrows : s.Grows s') (hheld : ∀ m, s'.Held m → s.Held m ∨ s'.Entry m)
    (hlisting : ∀ r ∈ s'.requests, ∀ posts, r.posts = some posts →
      (∃ r₀ ∈ s.requests, r₀.posts = some posts) ∨ s'.Listing posts)
    (hhas : ∀ c send, s'.sends.lookup c = some send → s'.client.Has send.home) : s'.Inv where
  held m hm := (hheld m hm).elim (fun hold => (h.held m hold).grow hgrows) id
  listing r hr posts hp := by
    rcases hlisting r hr posts hp with ⟨r₀, hr₀, hp₀⟩ | hnew
    · exact (h.listing r₀ hr₀ posts hp₀).grow hgrows
    · exact hnew
  sends c hc := (hgrows.sends c hc).elim (fun hold => hgrows.used c (h.sends c hold)) And.right
  deleted id hid := (hgrows.deleted id hid).elim (fun hold => hgrows.used id (h.deleted id hold)) fun hnew => hnew
  has := hhas

theorem Grows.of_same (hused : s'.used = s.used) (hsends : s'.sends = s.sends) (hdeleted : s'.deleted = s.deleted) :
    s.Grows s' := by
  constructor
  · exact fun id hid => hused ▸ hid
  · exact fun c hc => .inl (hsends ▸ hc)
  · exact fun id hid => .inl (hdeleted ▸ hid)

theorem mem_result {own messages : List Message} (h : r.result own posts = some messages) :
    messages = fetched posts ++ r.current.messages own := by
  unfold ListRequest.result at h
  split at h
  · rename_i hc
    rw [hc]
    simpa [CurrentMessages.messages] using h.symm
  · split at h
    · cases h
    · exact (Option.some.inj h).symm

theorem list_assigned : (s.assigned n r posts).client.list ref = if ref = .channel r.channelId then
    (r.result (s.own r.channelId) posts).getD (s.own r.channelId) else s.client.list ref := by
  unfold assigned
  cases r.result (s.own r.channelId) posts with
  | none =>
    dsimp only
    split
    · rename_i hid
      rw [hid]
      rfl
    · rfl
  | some messages => exact list_setMessages

theorem mem_requests_assigned (h : r' ∈ (s.assigned n r posts).requests) : ∃ r₀ ∈ s.requests,
    r'.posts = r₀.posts ∧ (r'.current = r₀.current ∨ r'.current = .detached (s.own r.channelId)) := by
  unfold assigned at h
  cases hresult : r.result (s.own r.channelId) posts with
  | none =>
    rw [hresult] at h
    exact ⟨r', List.mem_of_mem_eraseIdx h, rfl, .inl rfl⟩
  | some messages =>
    rw [hresult] at h
    obtain ⟨r₀, hr₀, rfl⟩ := List.mem_map.1 h
    refine ⟨r₀, List.mem_of_mem_eraseIdx hr₀, ?_⟩
    unfold ListRequest.detach
    split
    · split
      · exact ⟨rfl, .inr rfl⟩
      · exact ⟨rfl, .inl rfl⟩
    · exact ⟨rfl, .inl rfl⟩

theorem exists_of_mem_fetched (h : m ∈ fetched posts) : ∃ p ∈ posts, m = postToMessage p := by
  simp only [fetched, List.mem_reverse, List.mem_map, List.mem_filter] at h
  obtain ⟨p, ⟨hp, -⟩, rfl⟩ := h
  exact ⟨p, hp, rfl⟩

theorem Listing.entry (h : s.Listing posts) (hm : m ∈ fetched posts) : s.Entry m := by
  obtain ⟨p, hp, rfl⟩ := exists_of_mem_fetched hm
  exact ⟨h.used p hp, fun hc => absurd hc (h.ofServer p hp)⟩

theorem Inv.assigned (h : s.Inv) (hr : r ∈ s.requests) (hp : r.posts = some posts) :
    (s.assigned n r posts).Inv := by
  have hsame : (s.assigned n r posts).used = s.used ∧ (s.assigned n r posts).sends = s.sends ∧
      (s.assigned n r posts).deleted = s.deleted := by
    unfold MessageRun.assigned
    cases r.result _ posts <;> exact ⟨rfl, rfl, rfl⟩
  have hown : ∀ m ∈ s.own r.channelId, s.Held m := fun m hm => .inl ⟨_, hm⟩
  have hgrows := Grows.of_same hsame.1 hsame.2.1 hsame.2.2
  refine h.of_grows hgrows ?_ ?_ ?_
  · rintro m (⟨ref, hm⟩ | ⟨r', hr', hm⟩)
    · rw [list_assigned] at hm
      split at hm
      · cases hresult : r.result (s.own r.channelId) posts with
        | none =>
          rw [hresult] at hm
          exact .inl (hown m hm)
        | some messages =>
          rw [hresult, Option.getD_some, mem_result hresult, List.mem_append] at hm
          rcases hm with hm | hm
          · exact .inr (((h.listing r hr posts hp).entry hm).grow hgrows)
          · left
            cases hcurrent : r.current with
            | nothing => simp [hcurrent, CurrentMessages.messages] at hm
            | own =>
              rw [hcurrent] at hm
              exact hown m hm
            | detached messages =>
              refine .inr ⟨r, hr, ?_⟩
              rw [hcurrent] at hm ⊢
              exact hm
      · exact .inl (.inl ⟨ref, hm⟩)
    · obtain ⟨r₀, hr₀, -, hcurrent | hcurrent⟩ := mem_requests_assigned hr'
      · exact .inl (.inr ⟨r₀, hr₀, hcurrent ▸ hm⟩)
      · rw [hcurrent] at hm
        exact .inl (hown m hm)
  · intro r' hr' posts' hp'
    obtain ⟨r₀, hr₀, hposts, -⟩ := mem_requests_assigned hr'
    exact .inl ⟨r₀, hr₀, hposts.symm.trans hp'⟩
  · intro c send hc
    rw [hsame.2.1] at hc
    unfold MessageRun.assigned
    cases r.result _ posts with
    | none => exact h.has c send hc
    | some messages => exact has_setMessages (h.has c send hc)

/-! ### Sends and events -/

theorem mem_sends (h : s.sends.lookup c = some send) : c ∈ s.sends := AList.lookup_isSome.1 (by rw [h]; rfl)

theorem lookup_end {c' : String} {send' : Send} (hsend : s.sends.lookup c = some send)
    (h : (s.sends.insert c { send with pending := false }).lookup c' = some send') :
    ∃ send₀, s.sends.lookup c' = some send₀ ∧ send'.home = send₀.home ∧
      (send'.Live → send' = send₀ ∧ c' ≠ c) := by
  rcases Assoc.lookup_insert_cases h with ⟨rfl, rfl⟩ | ⟨hne, h⟩
  · exact ⟨send, hsend, rfl, fun hlive => absurd hlive.1 Bool.false_ne_true⟩
  · exact ⟨send', h, rfl, fun _ => ⟨rfl, hne⟩⟩

theorem mem_end {c' : String} (hsend : s.sends.lookup c = some send)
    (h : c' ∈ s.sends.insert c { send with pending := false }) : c' ∈ s.sends := by
  rcases (AList.mem_insert _).1 h with rfl | h
  · exact mem_sends hsend
  · exact h

theorem lookup_arrive {clientMsgId : Option String} : (s.arrive clientMsgId).lookup c =
    (s.sends.lookup c).map fun send => { send with arrived := send.arrived || decide (clientMsgId = some c) } := by
  cases clientMsgId with
  | none => simp [arrive]
  | some c' =>
    rw [arrive, Assoc.lookup_modify]
    split
    · rename_i hid
      subst hid
      simp
    · rename_i hid
      simp [Ne.symm hid]

theorem mem_arrive {clientMsgId : Option String} : c ∈ s.arrive clientMsgId ↔ c ∈ s.sends := by
  rw [← AList.lookup_isSome, ← AList.lookup_isSome, lookup_arrive, Option.isSome_map]

theorem mem_list_handleNewMessage {client : State} (h : m ∈ (handleNewMessage client post).list ref) :
    m = postToMessage post ∨ m ∈ client.list ref := by
  rw [list_handleNewMessage rfl] at h
  split at h
  · exact (FirstMatch.mem_upsertFirst.1 h).imp_right List.mem_of_mem_eraseP
  · split at h
    · exact .inr (List.mem_of_mem_eraseP h)
    · exact .inr h

theorem Inv.of_lists (h : s.Inv) (hgrows : s.Grows s') (hrequests : s'.requests = s.requests)
    (hlist : ∀ ref, ∀ m ∈ s'.client.list ref, m ∈ s.client.list ref ∨ s'.Entry m)
    (hhas : ∀ c send, s'.sends.lookup c = some send → s'.client.Has send.home) : s'.Inv := by
  refine h.of_grows hgrows ?_ (fun r hr posts hp => .inl ⟨r, hrequests ▸ hr, hp⟩) hhas
  rintro m (⟨ref, hm⟩ | hm)
  · exact (hlist ref m hm).imp_left fun hold => .inl ⟨ref, hold⟩
  · rw [hrequests] at hm
    exact .inl (.inr hm)

theorem Inv.of_requests {requests : List ListRequest} {more : Assoc String Bool} {loading : Bool} (h : s.Inv)
    (hr : ∀ r' ∈ requests, (r'.posts = none ∧ r'.current.messages [] = []) ∨ r' ∈ s.requests) :
    Inv { s with requests := requests, hasMoreOlderByChannel := more, loading := loading } := by
  refine h.of_grows (.of_same rfl rfl rfl) ?_ ?_ h.has
  · rintro m (hm | ⟨r', hr', hm⟩)
    · exact .inl (.inl hm)
    · rcases hr r' hr' with ⟨-, hnone⟩ | hold
      · rw [hnone] at hm
        cases hm
      · exact .inl (.inr ⟨r', hold, hm⟩)
  · intro r' hr' posts hp
    rcases hr r' hr' with ⟨hnone, -⟩ | hold
    · rw [hnone] at hp
      cases hp
    · exact .inl ⟨r', hold, hp⟩

theorem Inv.fetchMessages (h : s.Inv) : (s.fetchMessages channelId).Inv := by
  refine h.of_requests fun r' hr' => ?_
  rcases List.mem_append.1 hr' with hr' | hr'
  · exact .inr hr'
  · rw [List.mem_singleton.1 hr']
    exact .inl ⟨rfl, rfl⟩

theorem Inv.fetchOlderMessages (h : s.Inv) : (s.fetchOlderMessages channelId).Inv := by
  unfold MessageRun.fetchOlderMessages
  split
  · exact h
  · split
    · exact h.fetchMessages
    · refine h.of_requests fun r' hr' => ?_
      rcases List.mem_append.1 hr' with hr' | hr'
      · exact .inr hr'
      · rw [List.mem_singleton.1 hr']
        exact .inl ⟨rfl, rfl⟩

theorem Inv.snapshot (h : s.Inv) (hs : step s (.snapshot n posts) = some s') : s'.Inv := by
  obtain ⟨r, hr, hnodup, hserver, rfl⟩ := step_snapshot hs
  have hgrows : s.Grows { s with
      requests := s.requests.set n { r with posts := some posts }, used := posts.map Post.id ++ s.used } :=
    ⟨fun id hid => List.mem_append_right _ hid, fun c hc => .inl hc, fun id hid => .inl hid⟩
  refine h.of_grows hgrows ?_ ?_ h.has
  · rintro m (hm | ⟨r', hr', hm⟩)
    · exact .inl (.inl hm)
    · rcases List.mem_or_eq_of_mem_set hr' with hr' | rfl
      · exact .inl (.inr ⟨r', hr', hm⟩)
      · exact .inl (.inr ⟨r, List.mem_of_getElem? hr, hm⟩)
  · intro r' hr' posts' hp
    rcases List.mem_or_eq_of_mem_set hr' with hr' | rfl
    · exact .inl ⟨r', hr', hp⟩
    · obtain rfl := Option.some.inj hp
      exact .inr ⟨hnodup, fun p hp => List.mem_append_left _ (List.mem_map_of_mem hp), hserver⟩

theorem Inv.sendMessage (h : s.Inv)
    (hs : step s (.sendMessage c channelId userId content rootId) = some s') : s'.Inv := by
  obtain ⟨hnew, rfl⟩ := step_sendMessage hs
  refine h.of_lists ⟨fun id hid => List.mem_cons_of_mem _ hid, fun c' hc' => ?_,
    fun id hid => .inl hid⟩ rfl ?_ ?_
  · rcases (AList.mem_insert _).1 hc' with rfl | hc'
    · exact .inr ⟨hnew, List.mem_cons_self⟩
    · exact .inl hc'
  · intro ref m hm
    rw [list_addOptimisticMessage] at hm
    split at hm
    · rcases List.mem_append.1 hm with hm | hm
      · exact .inl hm
      · obtain rfl := List.mem_singleton.1 hm
        exact .inr ⟨List.mem_cons_self, fun _ => rfl⟩
    · exact .inl hm
  · intro c' send hc'
    rcases Assoc.lookup_insert_cases hc' with ⟨-, rfl⟩ | ⟨-, hc'⟩
    · exact has_addOptimisticMessage (.inr rfl)
    · exact has_addOptimisticMessage (.inl (h.has c' send hc'))

theorem Inv.answered (h : s.Inv) (hs : step s (.answered c post) = some s') : s'.Inv := by
  obtain ⟨send, hsend, hhome, hserver, rfl⟩ := step_answered hs
  refine h.of_lists ⟨fun id hid => List.mem_cons_of_mem _ hid, fun c' hc' => .inl (mem_end hsend hc'), fun id hid => .inl hid⟩
    rfl ?_ ?_
  · intro ref m hm
    rw [list_updateOptimisticMessage (hhome ▸ h.has c send hsend)] at hm
    split at hm
    · rcases FirstMatch.mem_upsertFirst.1 hm with rfl | hm
      · exact .inr ⟨List.mem_cons_self, fun hc => absurd (mem_end hsend hc) hserver⟩
      · exact .inl (List.mem_of_mem_eraseP hm)
    · exact .inl hm
  · intro c' send' hc'
    obtain ⟨send₀, hsend₀, hhome₀, -⟩ := lookup_end hsend hc'
    exact has_updateOptimisticMessage (hhome₀ ▸ h.has c' send₀ hsend₀)

theorem Inv.failed (h : s.Inv) (hs : step s (.failed c) = some s') : s'.Inv := by
  obtain ⟨send, hsend, rfl⟩ := step_failed hs
  refine h.of_lists ⟨fun id hid => hid, fun c' hc' => .inl (mem_end hsend hc'), fun id hid => .inl hid⟩ rfl
    (fun ref m hm => .inl hm) fun c' send' hc' => ?_
  obtain ⟨send₀, hsend₀, hhome₀, -⟩ := lookup_end hsend hc'
  exact hhome₀ ▸ h.has c' send₀ hsend₀

theorem Inv.posted (h : s.Inv) (hs : step s (.posted post) = some s') : s'.Inv := by
  obtain ⟨hserver, rfl⟩ := step_posted hs
  refine h.of_lists ⟨fun id hid => List.mem_cons_of_mem _ hid, fun c hc => .inl (mem_arrive.1 hc), fun id hid => .inl hid⟩
    rfl ?_ ?_
  · intro ref m hm
    rcases mem_list_handleNewMessage hm with rfl | hm
    · exact .inr ⟨List.mem_cons_self, fun hc => absurd (mem_arrive.1 hc) hserver⟩
    · exact .inl hm
  · intro c send' hc
    obtain ⟨send, hsend, rfl⟩ := Option.map_eq_some_iff.1 (lookup_arrive.symm.trans hc)
    exact has_handleNewMessage (h.has c send hsend)

theorem Inv.of_deleted (h : s.Inv) (hs : step s (.deleted id) = some s') : s'.Inv := by
  obtain ⟨-, rfl⟩ := step_deleted hs
  refine h.of_lists ⟨fun id' hid => List.mem_cons_of_mem _ hid, fun c hc => .inl hc, fun id' hid => ?_⟩ rfl ?_
    fun c send hc => has_handleMessageDelete (h.has c send hc)
  · rcases List.mem_cons.1 hid with rfl | hid
    · exact .inr List.mem_cons_self
    · exact .inl hid
  · intro ref m hm
    rw [list_handleMessageDelete] at hm
    exact .inl (List.mem_of_mem_eraseP hm)

theorem Inv.step (h : s.Inv) (hs : step s input = some s') : s'.Inv := by
  cases input with
  | fetchMessages channelId =>
    cases hs
    exact h.fetchMessages
  | fetchOlderMessages channelId =>
    cases hs
    exact h.fetchOlderMessages
  | snapshot n posts => exact h.snapshot hs
  | assigned n =>
    obtain ⟨r, posts, hn, hp, rfl⟩ := step_assigned hs
    exact h.assigned (List.mem_of_getElem? hn) hp
  | listFailed n =>
    rw [step_listFailed hs]
    exact h.of_requests fun r' hr' => .inr (List.mem_of_mem_eraseIdx hr')
  | sendMessage c channelId userId content rootId => exact h.sendMessage hs
  | answered c post => exact h.answered hs
  | failed c => exact h.failed hs
  | posted post => exact h.posted hs
  | deleted id => exact h.of_deleted hs

theorem inv_init (currentChannelId username : Option String) : (init currentChannelId username).Inv := by
  constructor
  · rintro m (⟨ref, hm⟩ | ⟨r, hr, -⟩)
    · cases ref <;> cases hm
    · cases hr
  · exact fun r hr => absurd hr List.not_mem_nil
  · exact fun c hc => absurd hc (AList.notMem_empty c)
  · exact fun id hid => absurd hid List.not_mem_nil
  · intro c send hc
    cases hc

/-! ### Steps that write no list -/

def Writes : MessageInput → Prop
  | .assigned _ | .sendMessage .. | .answered .. | .posted _ | .deleted _ => True
  | _ => False

/-- The other inputs leave the lists, the events that were handled and the live sends, save that a send can fail. -/
theorem step_of_not_writes (hs : step s input = some s') (h : ¬ Writes input) :
    s'.client = s.client ∧ s'.posted = s.posted ∧ s'.deleted = s.deleted ∧
      ∀ c send, s'.sends.lookup c = some send → send.Live → s.sends.lookup c = some send := by
  cases input with
  | fetchMessages channelId =>
    cases hs
    exact ⟨rfl, rfl, rfl, fun _ _ hc _ => hc⟩
  | fetchOlderMessages channelId =>
    cases hs
    unfold fetchOlderMessages
    split
    · exact ⟨rfl, rfl, rfl, fun _ _ hc _ => hc⟩
    · split <;> exact ⟨rfl, rfl, rfl, fun _ _ hc _ => hc⟩
  | snapshot n posts =>
    obtain ⟨r, -, -, -, rfl⟩ := step_snapshot hs
    exact ⟨rfl, rfl, rfl, fun _ _ hc _ => hc⟩
  | listFailed n =>
    rw [step_listFailed hs]
    exact ⟨rfl, rfl, rfl, fun _ _ hc _ => hc⟩
  | failed c =>
    obtain ⟨send, hsend, rfl⟩ := step_failed hs
    refine ⟨rfl, rfl, rfl, fun c' send' hc' hlive => ?_⟩
    obtain ⟨send₀, hsend₀, -, hsame⟩ := lookup_end hsend hc'
    rw [(hsame hlive).1, hsend₀]
  | _ => exact absurd trivial h

end MessageRun

end Rustchat
