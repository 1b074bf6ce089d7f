import Rustchat.Hub

/-!
# Channel subscriptions and channel membership (`api/channels.rs`, `api/v4/channels/members.rs`)

The hub hands a channel's events to its subscriber list. The list has two writers: a new socket
subscribes its user to the channels the user is a member of, and the `subscribe_channel` command
subscribes to whatever channel it names. The member handlers change the rows of `channel_members` and
never the list. `Keeps` says which steps keep every subscriber a member: the steps of every run in which
it stays so are exactly these (`MemberState.subscribers_are_members`).

A request, with its ids parsed, takes its checks in one step and its writing query in another. Its
answer, the broadcasts and system messages it sends (which change neither the hub nor the rows) and the
team subscriptions of a new socket are left out.
-/

namespace Rustchat

inductive ChannelType where
  | Public
  | Private
  | Direct
  | Group
deriving DecidableEq

structure Channel where
  channelType : ChannelType
  deleted : Bool
deriving DecidableEq

/-- The tables behind the member handlers; a member row is known by its channel and its user. -/
structure MemberDb where
  users : List Uuid
  channels : Assoc Uuid Channel
  members : Assoc (Uuid × Uuid) String

/-- The caller of a handler, with the answers of `has_permission`. -/
structure Auth where
  userId : Uuid
  systemManage : Bool
  channelManage : Bool

inductive MemberWrite where
  -- `updateRole` is `ON CONFLICT DO UPDATE SET role`, else it is `ON CONFLICT DO NOTHING`
  | insert (channelId userId : Uuid) (role : String) (updateRole : Bool)
  | delete (channelId userId : Uuid)

namespace MemberDb

def IsMember (db : MemberDb) (channelId userId : Uuid) : Prop := (channelId, userId) ∈ db.members

instance (db : MemberDb) (channelId userId : Uuid) : Decidable (db.IsMember channelId userId) :=
  inferInstanceAs (Decidable (_ ∈ db.members))

def channelsOf (db : MemberDb) (userId : Uuid) : List Uuid :=
  db.members.keys.filterMap fun k => if k.2 = userId then some k.1 else none

def write (db : MemberDb) : MemberWrite → MemberDb
  | .insert channelId userId role updateRole =>
    -- the foreign keys and the width of the column
    if userId ∈ db.users ∧ channelId ∈ db.channels ∧ role.length ≤ 32 then
      if db.IsMember channelId userId ∧ updateRole = false then db
      else { db with members := db.members.insert (channelId, userId) role }
    else db
  | .delete channelId userId => { db with members := db.members.erase (channelId, userId) }

/-- `api/v4/channels/utils.rs` -/
def ensureChannelAdminOrSystemManage (db : MemberDb) (channelId : Uuid) (auth : Auth) :
    Except AppError Unit :=
  if auth.systemManage then .ok ()
  else
    match db.members.lookup (channelId, auth.userId) with
    | some role =>
      if role = "admin" ∨ role = "channel_admin" ∨ role = "team_admin" then .ok ()
      else .error (.forbidden "Channel admin privileges required")
    | none => .error (.forbidden "Not a member of this channel")

/-- The check of the native handlers, with the text of its last refusal. -/
def ensureAdminOr (db : MemberDb) (channelId : Uuid) (auth : Auth) (refusal : String) :
    Except AppError Unit :=
  match db.members.lookup (channelId, auth.userId) with
  | some role =>
    if role ≠ "admin" ∧ auth.channelManage = false then .error (.forbidden refusal) else .ok ()
  | none => .error (.forbidden "Not a member of this channel")

def addChannelMember (db : MemberDb) (auth : Auth) (channelId userId : Uuid) : Except AppError MemberWrite :=
  match db.channels.lookup channelId with
  | none => .error (.notFound "Channel not found")
  | some channel => do
    if channel.channelType = .Private then
      db.ensureChannelAdminOrSystemManage channelId auth
    else if db.IsMember channelId auth.userId then .ok ()
    else .error (.forbidden "Not a member of this channel")
    return .insert channelId userId "member" false

def removeChannelMember (db : MemberDb) (auth : Auth) (channelId userId : Uuid) :
    Except AppError MemberWrite := do
  if auth.userId ≠ userId then
    db.ensureChannelAdminOrSystemManage channelId auth
  return .delete channelId userId

def addMember (db : MemberDb) (auth : Auth) (channelId userId : Uuid) (role : Option String) :
    Except AppError MemberWrite := do
  if auth.userId = userId then
    match db.channels.lookup channelId with
    | none => .error .database
    | some channel =>
      if channel.deleted then .error .database
      else if channel.channelType ≠ .Public then
        db.ensureAdminOr channelId auth "Cannot join private channel without invite"
      else .ok ()
  else db.ensureAdminOr channelId auth "Not an admin of this channel"
  return .insert channelId userId (role.getD "member") true

def removeMember (db : MemberDb) (auth : Auth) (channelId userId : Uuid) : Except AppError MemberWrite := do
  if auth.userId ≠ userId then
    db.ensureAdminOr channelId auth "Not an admin of this channel"
  return .delete channelId userId

end MemberDb

inductive MemberCall where
  | addChannelMember (channelId userId : Uuid)
  | removeChannelMember (channelId userId : Uuid)
  | addMember (channelId userId : Uuid) (role : Option String)
  | removeMember (channelId userId : Uuid)

def MemberCall.handle (db : MemberDb) (auth : Auth) : MemberCall → Except AppError MemberWrite
  | addChannelMember channelId userId => db.addChannelMember auth channelId userId
  | removeChannelMember channelId userId => db.removeChannelMember auth channelId userId
  | addMember channelId userId role => db.addMember auth channelId userId role
  | removeMember channelId userId => db.removeMember auth channelId userId

/-- What a request in progress has left to do. -/
inductive Request where
  -- `subscribe_default_scopes`, before and after the query for the channels of the user
  | connecting (userId : Uuid)
  | subscribing (userId : Uuid) (channelIds : List Uuid)
  | writing (write : MemberWrite)

structure MemberState where
  hub : WsHub
  db : MemberDb
  inProgress : Assoc Nat Request

inductive MemberOp where
  | connect (request : Nat) (userId : Uuid) (username : String) (connectionId : Uuid)
  | disconnect (userId connectionId : Uuid)
  -- the commands of a socket (`handle_client_message`)
  | subscribeChannel (userId connectionId channelId : Uuid)
  | unsubscribeChannel (userId connectionId channelId : Uuid)
  | call (request : Nat) (auth : Auth) (call : MemberCall)
  -- the next step of a request in progress
  | advance (request : Nat)

namespace MemberState

def init (db : MemberDb) : MemberState := ⟨.new, db, ∅⟩

/-- No request is in progress. -/
def Idle (s : MemberState) : Prop := s.inProgress.keys = []

instance (s : MemberState) : Decidable s.Idle := inferInstanceAs (Decidable (_ = _))

def advance (s : MemberState) (request : Nat) : Request → MemberState
  | .connecting userId =>
    { s with inProgress := s.inProgress.insert request (.subscribing userId (s.db.channelsOf userId)) }
  | .subscribing userId (channelId :: rest) =>
    { s with
      hub := s.hub.subscribeChannel userId channelId
      inProgress := s.inProgress.insert request (.subscribing userId rest) }
  | .subscribing _ [] => { s with inProgress := s.inProgress.erase request }
  | .writing w => { s with db := s.db.write w, inProgress := s.inProgress.erase request }

def step (s : MemberState) : MemberOp → Option MemberState
  | .connect request userId username connectionId =>
    if (s.inProgress.lookup request).isSome then none
    else some { s with
      hub := s.hub.addConnection userId username connectionId
      inProgress := s.inProgress.insert request (.connecting userId) }
  | .disconnect userId connectionId => some { s with hub := s.hub.removeConnection userId connectionId }
  | .subscribeChannel userId connectionId channelId =>
    if s.hub.IsConnected userId connectionId then
      some { s with hub := s.hub.subscribeChannel userId channelId }
    else none
  | .unsubscribeChannel userId connectionId channelId =>
    if s.hub.IsConnected userId connectionId then
      some { s with hub := s.hub.unsubscribeChannel userId channelId }
    else none
  | .call request auth call =>
    if (s.inProgress.lookup request).isSome then none
    else
      match call.handle s.db auth with
      | .ok w => some { s with inProgress := s.inProgress.insert request (.writing w) }
      | .error _ => some s
  | .advance request => (s.inProgress.lookup request).map (s.advance request)

def IsSubscribed (s : MemberState) (channelId userId : Uuid) : Prop :=
  userId ∈ subscribers s.hub.channelSubscriptions channelId

instance (s : MemberState) (channelId userId : Uuid) : Decidable (s.IsSubscribed channelId userId) :=
  inferInstanceAs (Decidable (_ ∈ subscribers _ _))

def SubscribersAreMembers (s : MemberState) : Prop :=
  ∀ channelId userId, s.IsSubscribed channelId userId → s.db.IsMember channelId userId

/-- An envelope for a channel is handed to members of it only. -/
def ChannelEventsConfined (s : MemberState) : Prop :=
  ∀ env b channelId, env.broadcast = some b → b.channelId = some channelId →
    ∀ d ∈ s.hub.broadcastLocal env, s.db.IsMember channelId d.userId

/-- The user that the step subscribes is a member, and the user that it removes is not subscribed. -/
def Keeps (s : MemberState) : MemberOp → Prop
  | .subscribeChannel userId _ channelId => s.db.IsMember channelId userId
  | .advance request =>
    match s.inProgress.lookup request with
    | some (.subscribing userId (channelId :: _)) => s.db.IsMember channelId userId
    | some (.writing (.delete channelId userId)) => ¬ s.IsSubscribed channelId userId
    | _ => True
  | _ => True

/-! ### Preservation -/

variable {s s' : MemberState} {op : MemberOp} {u v ch : Uuid}

theorem SubscribersAreMembers.congr (hs : ∀ ch u, s'.IsSubscribed ch u → s.IsSubscribed ch u)
    (hm : ∀ ch u, s.db.IsMember ch u → s'.db.IsMember ch u) (h : s.SubscribersAreMembers) :
    s'.SubscribersAreMembers :=
  fun ch u hsub => hm ch u (h ch u (hs ch u hsub))

theorem subscribe_iff (h : s.SubscribersAreMembers) (hdb : s'.db = s.db)
    (hhub : s'.hub = s.hub.subscribeChannel u ch) : s'.SubscribersAreMembers ↔ s.db.IsMember ch u := by
  have hsub : ∀ ch' v, s'.IsSubscribed ch' v ↔ (v = u ∧ ch' = ch) ∨ s.IsSubscribed ch' v := by
    intro ch' v
    rw [IsSubscribed, hhub]
    exact mem_subscribers_subscribe
  constructor
  · intro h'
    have := h' ch u ((hsub ch u).2 (.inl ⟨rfl, rfl⟩))
    rwa [hdb] at this
  · intro hm ch' v hv
    rw [hdb]
    rcases (hsub ch' v).1 hv with ⟨rfl, rfl⟩ | hv
    · exact hm
    · exact h ch' v hv

theorem isMember_delete {db : MemberDb} {ch' : Uuid} :
    (db.write (.delete ch u)).IsMember ch' v ↔ ¬ (ch' = ch ∧ v = u) ∧ db.IsMember ch' v := by
  simp only [MemberDb.write, MemberDb.IsMember, AList.mem_erase, ne_eq, Prod.mk.injEq]

theorem IsMember.insert {db : MemberDb} {ch' : Uuid} {role : String} {updateRole : Bool}
    (h : db.IsMember ch' v) : (db.write (.insert ch u role updateRole)).IsMember ch' v := by
  simp only [MemberDb.write]
  split
  · split
    · exact h
    · exact (AList.mem_insert _).2 (.inr h)
  · exact h

theorem delete_iff (h : s.SubscribersAreMembers) (hhub : s'.hub = s.hub)
    (hdb : s'.db = s.db.write (.delete ch u)) : s'.SubscribersAreMembers ↔ ¬ s.IsSubscribed ch u := by
  have hsub : ∀ ch' v, s'.IsSubscribed ch' v ↔ s.IsSubscribed ch' v := by
    intro ch' v; rw [IsSubscribed, hhub]; rfl
  constructor
  · intro h' hu
    have := h' ch u ((hsub ch u).2 hu)
    rw [hdb, isMember_delete] at this
    exact this.1 ⟨rfl, rfl⟩
  · intro hu ch' v hv
    rw [hdb, isMember_delete]
    refine ⟨?_, h ch' v ((hsub ch' v).1 hv)⟩
    rintro ⟨rfl, rfl⟩
    exact hu ((hsub _ _).1 hv)

theorem advance_iff {request : Nat} {r : Request} (h : s.SubscribersAreMembers)
    (hr : s.inProgress.lookup request = some r) :
    (s.advance request r).SubscribersAreMembers ↔ s.Keeps (.advance request) := by
  simp only [Keeps, hr]
  cases r with
  | connecting u => exact ⟨fun _ => trivial, fun _ => h⟩
  | subscribing u channelIds =>
    cases channelIds with
    | nil => exact ⟨fun _ => trivial, fun _ => h⟩
    | cons ch rest => exact subscribe_iff h rfl rfl
  | writing w =>
    cases w with
    | insert ch u role updateRole =>
      exact ⟨fun _ => trivial,
        fun _ => SubscribersAreMembers.congr (s := s) (fun _ _ => id) (fun _ _ => IsMember.insert) h⟩
    | delete ch u => exact delete_iff h rfl rfl

theorem step_iff (h : s.SubscribersAreMembers) (hs : s.step op = some s') :
    s'.SubscribersAreMembers ↔ s.Keeps op := by
  cases op with
  | connect request u name c =>
    simp only [step] at hs
    split at hs
    · cases hs
    · cases hs
      exact ⟨fun _ => trivial, fun _ => h⟩
  | disconnect u c =>
    cases hs
    refine ⟨fun _ => trivial, fun _ => SubscribersAreMembers.congr (s := s) (fun ch v hv => ?_) (fun _ _ => id) h⟩
    have hv' : v ∈ subscribers (s.hub.removeConnection u c).channelSubscriptions ch := hv
    rwa [WsHub.removeConnection_channelSubscriptions] at hv'
  | subscribeChannel u c ch =>
    simp only [step] at hs
    split at hs
    · cases hs
      exact subscribe_iff h rfl rfl
    · cases hs
  | unsubscribeChannel u c ch =>
    simp only [step] at hs
    split at hs
    · cases hs
      refine ⟨fun _ => trivial, fun _ => SubscribersAreMembers.congr (s := s) (fun ch' v hv => ?_) (fun _ _ => id) h⟩
      exact (mem_subscribers_unsubscribe.1 hv).2
    · cases hs
  | call request auth call =>
    simp only [step] at hs
    split at hs
    · cases hs
    · split at hs
      · cases hs
        exact ⟨fun _ => trivial, fun _ => h⟩
      · cases hs
        exact ⟨fun _ => trivial, fun _ => h⟩
  | advance request =>
    obtain ⟨r, hr, rfl⟩ := Option.map_eq_some_iff.1 hs
    exact advance_iff h hr

theorem step_hub (hs : s.step op = some s') : s'.hub = s.hub ∨ ∃ hubOp, s'.hub = s.hub.apply hubOp := by
  cases op with
  | connect request u name c =>
    simp only [step] at hs
    split at hs
    · cases hs
    · cases hs
      exact .inr ⟨.addConnection u name c, rfl⟩
  | disconnect u c =>
    cases hs
    exact .inr ⟨.removeConnection u c, rfl⟩
  | subscribeChannel u c ch =>
    simp only [step] at hs
    split at hs
    · cases hs
      exact .inr ⟨.subscribeChannel u ch, rfl⟩
    · cases hs
  | unsubscribeChannel u c ch =>
    simp only [step] at hs
    split at hs
    · cases hs
      exact .inr ⟨.unsubscribeChannel u ch, rfl⟩
    · cases hs
  | call request auth call =>
    simp only [step] at hs
    split at hs
    · cases hs
    · split at hs
      · cases hs; exact .inl rfl
      · cases hs; exact .inl rfl
  | advance request =>
    obtain ⟨r, -, rfl⟩ := Option.map_eq_some_iff.1 hs
    cases r with
    | connecting u => exact .inl rfl
    | subscribing u channelIds =>
      cases channelIds with
      | nil => exact .inl rfl
      | cons ch rest => exact .inr ⟨.subscribeChannel u ch, rfl⟩
    | writing w => exact .inl rfl

theorem ok_step (h : s.hub.Ok) (hs : s.step op = some s') : s'.hub.Ok := by
  rcases step_hub hs with he | ⟨hubOp, he⟩
  · rw [he]; exact h
  · rw [he]; exact h.apply hubOp

theorem SubscribersAreMembers.confined (hok : s.hub.Ok) (h : s.SubscribersAreMembers) :
    s.ChannelEventsConfined := by
  intro env b ch hb hch d hd
  obtain ⟨-, ha⟩ := (WsHub.exists_delivery_iff hok).1 ⟨d, hd, rfl⟩
  rw [hb] at ha
  rcases b with ⟨channelId, teamId, userId, exclude⟩
  obtain rfl : channelId = some ch := hch
  exact h ch d.userId ha.1

theorem init_subscribersAreMembers (db : MemberDb) : (init db).SubscribersAreMembers :=
  fun _ _ h => absurd h List.not_mem_nil

/-- In every run whose steps subscribe members only and remove nobody who is still subscribed, the
subscribers of a channel are members of it and its events reach members only, whenever no request is in
progress. The first holds in all states of a run exactly if all its steps are of this kind. -/
theorem subscribers_are_members (db : MemberDb) (ops : List MemberOp) :
    (Run.AllSteps step Keeps (init db) ops →
      Run.AllStates step (fun s => s.Idle → s.SubscribersAreMembers ∧ s.ChannelEventsConfined) (init db) ops) ∧
    ∀ t, Run.exec step (init db) ops = some t →
      (Run.AllStates step SubscribersAreMembers (init db) ops ↔ Run.AllSteps step Keeps (init db) ops) := by
  constructor
  · intro hP
    have hinv : Run.AllStates step (fun s => s.SubscribersAreMembers ∧ s.hub.Ok) (init db) ops := by
      refine Run.allStates_of_allSteps ?_ ⟨init_subscribersAreMembers db, WsHub.Ok.new⟩ hP
      rintro s op s' ⟨hsub, hok⟩ hP hs
      exact ⟨(step_iff hsub hs).2 hP, ok_step hok hs⟩
    exact hinv.mono fun s ⟨hsub, hok⟩ _ => ⟨hsub, hsub.confined hok⟩
  · intro t ht
    refine Run.allStates_iff_allSteps (I := fun _ => True) (fun _ _ _ _ _ => trivial) ?_ trivial
      (init_subscribersAreMembers db) ht
    intro s op s' _ hsub hs
    exact step_iff hsub hs

/-- User `1` subscribes to the private channel `7` without being a member, and user `2` leaves it with
its socket still open. Events of the channel reach both. -/
theorem outsiders_receive_channel_events :
    let db : MemberDb := ⟨[1, 2], AList.insert 7 ⟨.Private, false⟩ ∅, AList.insert (7, 2) "member" ∅⟩
    let env := (WsEnvelope.new .messageCreated .null (some 7)).withBroadcast ⟨some 7, none, none, none⟩
    ∃ s, Run.exec step (init db) [.connect 0 1 "a" 11, .advance 0, .advance 0, .subscribeChannel 1 11 7,
        .connect 1 2 "b" 12, .advance 1, .advance 1, .advance 1,
        .call 2 ⟨2, false, false⟩ (.removeMember 7 2), .advance 2] = some s ∧ s.Idle ∧
      ∀ u ∈ [(1 : Uuid), 2], s.IsSubscribed 7 u ∧ ¬ s.db.IsMember 7 u ∧
        ∃ d ∈ s.hub.broadcastLocal env, d.userId = u := by
  intro db env
  refine ⟨_, rfl, rfl, fun u hu => ?_⟩
  rcases List.mem_pair.1 hu with rfl | rfl
  · refine ⟨by decide, by decide, ⟨1, 11, env.serialize⟩, ?_, rfl⟩
    exact List.mem_cons_self
  · refine ⟨by decide, by decide, ⟨2, 12, env.serialize⟩, ?_, rfl⟩
    exact List.mem_cons_of_mem _ List.mem_cons_self

end MemberState

end Rustchat
