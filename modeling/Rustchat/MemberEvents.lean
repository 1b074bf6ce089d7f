import Rustchat.ChannelSubs

/-!
# Events of a channel for its members

A new socket subscribes its user to the channels of that moment, and nobody does when a member is added later on. A
member with a live websocket is subscribed, whenever no request is in progress, as long as nobody is made a member whose
websocket is live already, unless the user is subscribed all the same or a new socket is about to see to it
(`MemberState.members_are_subscribed`).
-/

namespace Rustchat

/-- The request is going to subscribe the user to the channel, if the user is a member by then. -/
def Request.Serves (channelId userId : Uuid) : Request → Prop
  | .connecting v => v = userId
  | .subscribing v channelIds => v = userId ∧ channelId ∈ channelIds
  | .writing _ => False

namespace MemberState

def IsLive (s : MemberState) (userId : Uuid) : Prop := ∃ c, s.hub.IsConnected userId c

def Awaits (s : MemberState) (channelId userId : Uuid) : Prop :=
  ∃ request r, s.inProgress.lookup request = some r ∧ r.Serves channelId userId

def Attended (s : MemberState) (channelId userId : Uuid) : Prop :=
  s.IsLive userId → s.IsSubscribed channelId userId ∨ s.Awaits channelId userId

def MembersAttended (s : MemberState) : Prop :=
  ∀ channelId userId, s.db.IsMember channelId userId → s.Attended channelId userId

def MembersSubscribed (s : MemberState) : Prop :=
  ∀ channelId userId, s.db.IsMember channelId userId → s.IsLive userId → s.IsSubscribed channelId userId

/-- An envelope for a channel is handed once to every websocket of every member, but for the user that it excludes. -/
def MembersReached (s : MemberState) : Prop :=
  ∀ env b channelId, env.broadcast = some b → b.channelId = some channelId →
    ∀ userId c, s.db.IsMember channelId userId → s.hub.IsConnected userId c → b.excludeUserId ≠ some userId →
      WsHub.handedTo (s.hub.broadcastLocal env) userId c = [env.serialize]

/-- Whom the step makes a member has no live websocket, is subscribed or is about to be; and whom it unsubscribes is no
member, or is about to be subscribed. -/
def Attends (s : MemberState) : MemberOp → Prop
  | .unsubscribeChannel userId _ channelId => s.db.IsMember channelId userId → s.Awaits channelId userId
  | .advance request =>
    match s.inProgress.lookup request with
    | some (.writing (.insert channelId userId role updateRole)) =>
      (s.db.write (.insert channelId userId role updateRole)).IsMember channelId userId → s.Attended channelId userId
    | _ => True
  | _ => True

/-! ### Every step -/

variable {s s' : MemberState} {op : MemberOp} {u v ch channelId userId : Uuid} {request : Nat} {r : Request}

theorem awaits_advance (hr : s.inProgress.lookup request = some r) (h : s.Awaits ch u) :
    (s.advance request r).Awaits ch u ∨ r.Serves ch u := by
  have hl : ∀ other, other ≠ request →
    (s.advance request r).inProgress.lookup other = s.inProgress.lookup other := by
    intro other ho
    cases r with
    | connecting v => exact AList.lookup_insert_ne ho
    | subscribing v channelIds =>
      cases channelIds with
      | nil => exact AList.lookup_erase_ne ho
      | cons c rest => exact AList.lookup_insert_ne ho
    | writing w => exact AList.lookup_erase_ne ho
  obtain ⟨other, r', hr', hserves⟩ := h
  by_cases ho : other = request
  · subst ho
    obtain rfl := Option.some.inj (hr.symm.trans hr')
    exact .inr hserves
  · exact .inl ⟨other, r', (hl other ho).trans hr', hserves⟩

theorem Awaits.of_fresh (hn : ¬ (s.inProgress.lookup request).isSome)
    (hp : s'.inProgress = s.inProgress.insert request r) (h : s.Awaits ch u) : s'.Awaits ch u := by
  obtain ⟨other, r', hr', hserves⟩ := h
  have ho : other ≠ request := by
    rintro rfl
    rw [hr'] at hn
    exact hn rfl
  exact ⟨other, r', by rw [hp, AList.lookup_insert_ne ho, hr'], hserves⟩

theorem MembersAttended.mono (h : s.MembersAttended)
    (hmember : ∀ ch v, s'.db.IsMember ch v → s.db.IsMember ch v)
    (hlive : ∀ v, s'.IsLive v → s.IsLive v)
    (hsub : ∀ ch v, s.IsSubscribed ch v → s'.IsSubscribed ch v)
    (hawait : ∀ ch v, s'.db.IsMember ch v → s.Awaits ch v → s'.IsSubscribed ch v ∨ s'.Awaits ch v) :
    s'.MembersAttended := by
  intro ch v hm hv
  rcases h ch v (hmember ch v hm) (hlive v hv) with hs | ha
  · exact .inl (hsub ch v hs)
  · exact hawait ch v hm ha

theorem isSubscribed_subscribe (hhub : s'.hub = s.hub.subscribeChannel u ch) :
    s'.IsSubscribed channelId userId ↔ (userId = u ∧ channelId = ch) ∨ s.IsSubscribed channelId userId := by
  unfold IsSubscribed
  rw [hhub]
  exact mem_subscribers_subscribe

theorem mem_channelsOf {db : MemberDb} : ch ∈ db.channelsOf u ↔ db.IsMember ch u := by
  unfold MemberDb.channelsOf MemberDb.IsMember
  rw [List.mem_filterMap]
  constructor
  · rintro ⟨⟨c, v⟩, hkey, hfound⟩
    split at hfound
    · next hv =>
      cases hfound
      cases hv
      exact AList.mem_keys.1 hkey
    · cases hfound
  · exact fun h => ⟨(ch, u), AList.mem_keys.2 h, if_pos rfl⟩

theorem attended_insert_iff {role : String} {updateRole : Bool} (h : s.MembersAttended)
    (hr : s.inProgress.lookup request = some (.writing (.insert ch u role updateRole))) :
    (s.advance request (.writing (.insert ch u role updateRole))).MembersAttended ↔
      ((s.db.write (.insert ch u role updateRole)).IsMember ch u → s.Attended ch u) := by
  let s' := s.advance request (.writing (.insert ch u role updateRole))
  have hawait : ∀ c v, s'.Awaits c v ↔ s.Awaits c v := by
    intro c v
    constructor
    · rintro ⟨other, r, hother, hserves⟩
      refine ⟨other, r, ?_, hserves⟩
      exact (Assoc.lookup_erase_cases hother).2
    · intro ha
      exact (awaits_advance hr ha).resolve_right id
  have hattended : ∀ c v, s'.Attended c v ↔ s.Attended c v := by
    intro c v
    unfold Attended
    rw [hawait]
    rfl
  constructor
  · exact fun h' hm => (hattended ch u).1 (h' ch u hm)
  · intro hnew c v hm
    rw [hattended]
    by_cases hcv : c = ch ∧ v = u
    · obtain ⟨rfl, rfl⟩ := hcv
      exact hnew hm
    · refine h c v ?_
      have hm : (s.db.write (.insert ch u role updateRole)).IsMember c v := hm
      unfold MemberDb.write MemberDb.IsMember at hm
      dsimp only at hm
      split at hm
      · split at hm
        · exact hm
        · exact ((AList.mem_insert _).1 hm).resolve_left fun heq => hcv (Prod.mk.inj heq)
      · exact hm

theorem attended_advance_iff (h : s.MembersAttended) (hr : s.inProgress.lookup request = some r) :
    (s.advance request r).MembersAttended ↔ s.Attends (.advance request) := by
  dsimp only [Attends]
  rw [hr]
  cases r with
  | connecting u =>
    refine iff_of_true (MembersAttended.mono h (fun _ _ => id) (fun _ => id) (fun _ _ => id)
      fun c v hm ha => .inr ?_) trivial
    rcases awaits_advance hr ha with ha | rfl
    · exact ha
    · exact ⟨request, _, AList.lookup_insert _, rfl, mem_channelsOf.2 hm⟩
  | subscribing u channelIds =>
    cases channelIds with
    | nil =>
      refine iff_of_true (MembersAttended.mono h (fun _ _ => id) (fun _ => id) (fun _ _ => id)
        fun c v hm ha => .inr ?_) trivial
      rcases awaits_advance hr ha with ha | ⟨-, hc⟩
      · exact ha
      · cases hc
    | cons ch rest =>
      have hsub : ∀ c v, (s.advance request (.subscribing u (ch :: rest))).IsSubscribed c v ↔
          (v = u ∧ c = ch) ∨ s.IsSubscribed c v := fun c v => isSubscribed_subscribe rfl
      refine iff_of_true (MembersAttended.mono h (fun _ _ => id) (fun _ => id)
        (fun c v hs => (hsub c v).2 (.inr hs)) fun c v hm ha => ?_) trivial
      rcases awaits_advance hr ha with ha | ⟨rfl, hc⟩
      · exact .inr ha
      · rcases List.mem_cons.1 hc with rfl | hc
        · exact .inl ((hsub c u).2 (.inl ⟨rfl, rfl⟩))
        · exact .inr ⟨request, _, AList.lookup_insert _, rfl, hc⟩
  | writing w =>
    cases w with
    | insert ch u role updateRole => exact attended_insert_iff h hr
    | delete ch u =>
      exact iff_of_true (MembersAttended.mono h (fun _ _ hm => (isMember_delete.1 hm).2) (fun _ => id) (fun _ _ => id)
        fun c v hm ha => .inr ((awaits_advance hr ha).resolve_right id)) trivial

theorem isLive_addConnection {name : String} {c : Uuid} (hhub : s'.hub = s.hub.addConnection u name c)
    (h : s'.IsLive v) : v = u ∨ s.IsLive v := by
  obtain ⟨d, hd⟩ := h
  rw [hhub, WsHub.isConnected_addConnection] at hd
  exact hd.imp And.left fun h => ⟨d, h⟩

theorem attended_step_iff (h : s.MembersAttended) (hs : s.step op = some s') :
    s'.MembersAttended ↔ s.Attends op := by
  cases op with
  | connect request u name c =>
    simp only [step] at hs
    split at hs
    · cases hs
    · next hfresh =>
      cases hs
      refine iff_of_true (fun ch v hm hlive => ?_) trivial
      rcases isLive_addConnection (s := s) rfl hlive with rfl | hlive
      · exact .inr ⟨request, _, AList.lookup_insert _, rfl⟩
      · exact (h ch v hm hlive).imp id (Awaits.of_fresh hfresh rfl)
  | disconnect u c =>
    cases hs
    refine iff_of_true (MembersAttended.mono h (fun _ _ => id) (fun v hv => ?_) (fun ch v hv => ?_)
      fun _ _ _ ha => .inr ha) trivial
    · obtain ⟨d, hd⟩ := hv
      exact ⟨d, (WsHub.isConnected_removeConnection.1 hd).2⟩
    · have hsame : (s.hub.removeConnection u c).channelSubscriptions = s.hub.channelSubscriptions :=
        WsHub.removeConnection_channelSubscriptions
      show v ∈ subscribers (s.hub.removeConnection u c).channelSubscriptions ch
      rw [hsame]
      exact hv
  | subscribeChannel u c ch =>
    simp only [step] at hs
    split at hs
    · cases hs
      exact iff_of_true (MembersAttended.mono h (fun _ _ => id) (fun _ => id)
        (fun _ _ hv => (isSubscribed_subscribe (s := s) rfl).2 (.inr hv)) fun _ _ _ ha => .inr ha) trivial
    · cases hs
  | unsubscribeChannel u c ch =>
    simp only [step] at hs
    split at hs
    · next hconnected =>
      cases hs
      have hsub : ∀ ch' v, v ∈ subscribers (s.hub.unsubscribeChannel u ch).channelSubscriptions ch' ↔
          ¬ (v = u ∧ ch' = ch) ∧ s.IsSubscribed ch' v := fun ch' v => mem_subscribers_unsubscribe
      constructor
      · intro h' hm
        refine (h' ch u hm ⟨c, hconnected⟩).resolve_left fun hs => ?_
        exact ((hsub ch u).1 hs).1 ⟨rfl, rfl⟩
      · intro hattends ch' v hm hlive
        by_cases hv : v = u ∧ ch' = ch
        · obtain ⟨rfl, rfl⟩ := hv
          exact .inr (hattends hm)
        · exact (h ch' v hm hlive).imp (fun hs => (hsub ch' v).2 ⟨hv, hs⟩) id
    · cases hs
  | call request auth call =>
    simp only [step] at hs
    split at hs
    · cases hs
    · next hfresh =>
      split at hs
      · cases hs
        exact iff_of_true (MembersAttended.mono h (fun _ _ => id) (fun _ => id) (fun _ _ => id)
          fun _ _ _ ha => .inr (ha.of_fresh hfresh rfl)) trivial
      · cases hs
        exact iff_of_true h trivial
  | advance request =>
    obtain ⟨r, hr, rfl⟩ := Option.map_eq_some_iff.1 hs
    exact attended_advance_iff h hr

/-! ### Every run -/

theorem MembersAttended.subscribed (h : s.MembersAttended) (hidle : s.Idle) : s.MembersSubscribed := by
  intro ch v hm hlive
  refine (h ch v hm hlive).resolve_right ?_
  rintro ⟨request, r, hr, -⟩
  have hmem : request ∈ s.inProgress.keys := AList.mem_keys.1 (AList.lookup_isSome.1 (by rw [hr]; rfl))
  rw [hidle] at hmem
  cases hmem

theorem MembersSubscribed.reached (hok : s.hub.Ok) (h : s.MembersSubscribed) : s.MembersReached := by
  intro env b ch hb hch v c hm hconnected hexclude
  refine (WsHub.handedTo_broadcastLocal hok env v c).1 ⟨hconnected, ?_⟩
  rw [hb]
  rcases b with ⟨channelId, teamId, userId, exclude⟩
  obtain rfl : channelId = some ch := hch
  exact ⟨h ch v hm ⟨c, hconnected⟩, hexclude⟩

theorem init_membersAttended (db : MemberDb) : (init db).MembersAttended := by
  rintro ch v - ⟨c, userConnections, hl, -⟩
  cases hl

/-- In every run in which a user who is made a member has no live websocket then, is subscribed or is about to be, and
in which nobody unsubscribes from a channel of theirs, the members with a live websocket are subscribed and
receive the events of the channel whenever no request is in progress. The members are attended in all states of
a run exactly if all its steps are of this kind. -/
theorem members_are_subscribed (db : MemberDb) (ops : List MemberOp) :
    (Run.AllSteps step Attends (init db) ops →
      Run.AllStates step (fun s => s.Idle → s.MembersSubscribed ∧ s.MembersReached) (init db) ops) ∧
    ∀ t, Run.exec step (init db) ops = some t →
      (Run.AllStates step MembersAttended (init db) ops ↔ Run.AllSteps step Attends (init db) ops) := by
  constructor
  · intro hP
    have hinv : Run.AllStates step (fun s => s.MembersAttended ∧ s.hub.Ok) (init db) ops := by
      refine Run.allStates_of_allSteps ?_ ⟨init_membersAttended db, WsHub.Ok.new⟩ hP
      rintro s op s' ⟨hattended, hok⟩ hP hs
      exact ⟨(attended_step_iff hattended hs).2 hP, ok_step hok hs⟩
    exact hinv.mono fun s ⟨hattended, hok⟩ hidle =>
      ⟨hattended.subscribed hidle, (hattended.subscribed hidle).reached hok⟩
  · intro t ht
    exact Run.allStates_iff_allSteps (I := fun _ => True) (fun _ _ _ _ _ => trivial)
      (fun s op s' _ hattended hs => attended_step_iff hattended hs) trivial (init_membersAttended db) ht

/-- User `2` adds user `1` to the public channel `7`. -/
def joining : List MemberOp := [.call 1 ⟨2, false, false⟩ (.addMember 7 1 none), .advance 1]

/-- User `1` connects, being in so many channels. -/
def connecting (channels : ℕ) : List MemberOp :=
  .connect 0 1 "a" 11 :: List.replicate (channels + 2) (.advance 0)

def publicChannel : MemberDb := ⟨[1, 2], AList.insert 7 ⟨.Public, false⟩ ∅, AList.insert (7, 2) "admin" ∅⟩

/-- User `1` joins with its socket open, and is not subscribed. -/
theorem joined_not_subscribed :
    let env := (WsEnvelope.new .messageCreated .null (some 7)).withBroadcast ⟨some 7, none, none, none⟩
    ∃ s, Run.exec step (init publicChannel) (connecting 0 ++ joining) = some s ∧ s.Idle ∧
      s.db.IsMember 7 1 ∧ s.hub.IsConnected 1 11 ∧ ¬ s.IsSubscribed 7 1 ∧
        WsHub.handedTo (s.hub.broadcastLocal env) 1 11 = [] := by
  intro env
  exact ⟨_, rfl, rfl, by decide, by decide, by decide, rfl⟩

/-- User `1` joins and then connects. -/
theorem joined_subscribed : Run.AllStates step (fun s => s.Idle → s.MembersSubscribed ∧ s.MembersReached)
    (init publicChannel) (joining ++ connecting 1) ∧
      ∃ s, Run.exec step (init publicChannel) (joining ++ connecting 1) = some s ∧ s.Idle ∧
        s.IsSubscribed 7 1 := by
  refine ⟨(members_are_subscribed publicChannel (joining ++ connecting 1)).1 ?_, _, rfl, rfl, by decide⟩
  refine Run.allSteps_cons.2 ⟨trivial, fun s hs => ?_⟩
  cases hs
  refine Run.allSteps_cons.2 ⟨fun _ hlive => ?_, fun s hs => ?_⟩
  · obtain ⟨c, userConnections, hl, -⟩ := hlive
    cases hl
  · cases hs
    refine Run.allSteps_cons.2 ⟨trivial, fun s hs => ?_⟩
    cases hs
    refine Run.allSteps_cons.2 ⟨trivial, fun s hs => ?_⟩
    cases hs
    refine Run.allSteps_cons.2 ⟨trivial, fun s hs => ?_⟩
    cases hs
    exact Run.allSteps_cons.2 ⟨trivial, fun _ _ => Run.allSteps_nil⟩

end MemberState

end Rustchat
