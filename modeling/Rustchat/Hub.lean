import Rustchat.Events
import Rustchat.Lib.Assoc
import Rustchat.Lib.Run
import Mathlib.Data.List.Induction

/-!
# The websocket hub (`realtime/hub.rs`)

The hub keeps the open connections of every user and the subscriber lists of channels and teams.
`broadcastLocal` is the list of sends of one broadcast, in order. The subscriber lists never hold a
user twice (`WsHub.Ok`), so after any run of operations a broadcast hands one copy to each live
connection of each addressed user and nothing to anybody else (`WsHub.run_broadcastLocal`). Fan-out to other nodes is outside the model.
-/

namespace Rustchat

/-- One `tx.send`: `message` is handed to the channel of a connection of `userId`. -/
structure Delivery where
  userId : Uuid
  connectionId : Uuid
  message : String
deriving DecidableEq

structure WsHub where
  -- the sender of a connection is known by the connection's id
  connections : Assoc Uuid (Assoc Uuid Unit)
  channelSubscriptions : Assoc Uuid (List Uuid)
  teamSubscriptions : Assoc Uuid (List Uuid)
  presence : Assoc Uuid String
  usernames : Assoc Uuid String

/-- `subs.entry(key).or_insert_with(Vec::new)`, then push unless contained. -/
def subscribe (subs : Assoc Uuid (List Uuid)) (userId key : Uuid) : Assoc Uuid (List Uuid) :=
  let users := (subs.lookup key).getD []
  subs.insert key (if userId ∈ users then users else users ++ [userId])

def unsubscribe (subs : Assoc Uuid (List Uuid)) (userId key : Uuid) : Assoc Uuid (List Uuid) :=
  Assoc.modify key (·.filter fun id => id ≠ userId) subs

def subscribers (subs : Assoc Uuid (List Uuid)) (key : Uuid) : List Uuid := (subs.lookup key).getD []

namespace WsHub

def new : WsHub := ⟨∅, ∅, ∅, ∅, ∅⟩

def addConnection (hub : WsHub) (userId : Uuid) (username : String) (connectionId : Uuid) : WsHub :=
  { hub with
    connections := hub.connections.insert userId
      (((hub.connections.lookup userId).getD ∅).insert connectionId ())
    presence := hub.presence.insert userId "online"
    usernames := hub.usernames.insert userId username }

def removeConnection (hub : WsHub) (userId connectionId : Uuid) : WsHub :=
  match hub.connections.lookup userId with
  | some userConnections =>
    if (userConnections.erase connectionId).keys = [] then
      { hub with
        connections := hub.connections.erase userId
        presence := hub.presence.erase userId
        usernames := hub.usernames.erase userId }
    else
      { hub with connections := hub.connections.insert userId (userConnections.erase connectionId) }
  | none => hub

def subscribeChannel (hub : WsHub) (userId channelId : Uuid) : WsHub :=
  { hub with channelSubscriptions := subscribe hub.channelSubscriptions userId channelId }

def unsubscribeChannel (hub : WsHub) (userId channelId : Uuid) : WsHub :=
  { hub with channelSubscriptions := unsubscribe hub.channelSubscriptions userId channelId }

def subscribeTeam (hub : WsHub) (userId teamId : Uuid) : WsHub :=
  { hub with teamSubscriptions := subscribe hub.teamSubscriptions userId teamId }

def unsubscribeTeam (hub : WsHub) (userId teamId : Uuid) : WsHub :=
  { hub with teamSubscriptions := unsubscribe hub.teamSubscriptions userId teamId }

def setPresence (hub : WsHub) (userId : Uuid) (status : String) : WsHub :=
  { hub with presence := hub.presence.insert userId status }

/-- `for tx in user_connections.values() { tx.send(message) }`, if the user is connected. -/
def sendTo (hub : WsHub) (message : String) (userId : Uuid) : List Delivery :=
  match hub.connections.lookup userId with
  | some userConnections => userConnections.keys.map fun c => ⟨userId, c, message⟩
  | none => []

/-- The loop over a subscriber list, which skips the excluded user. -/
def sendToSubscribers (hub : WsHub) (message : String) (exclude : Option Uuid) (userIds : List Uuid) :
    List Delivery :=
  userIds.flatMap fun userId => if exclude = some userId then [] else hub.sendTo message userId

-- writing an envelope as text does not fail
def broadcastLocal (hub : WsHub) (env : WsEnvelope) : List Delivery :=
  let message := env.serialize
  match env.broadcast with
  | some b =>
    match b.channelId, b.teamId, b.userId with
    | some channelId, _, _ =>
      hub.sendToSubscribers message b.excludeUserId (subscribers hub.channelSubscriptions channelId)
    | none, some teamId, _ =>
      hub.sendToSubscribers message b.excludeUserId (subscribers hub.teamSubscriptions teamId)
    | none, none, some userId => hub.sendTo message userId
    | none, none, none => []
  | none => hub.connections.keys.flatMap (hub.sendTo message)

end WsHub

inductive HubOp where
  | addConnection (userId : Uuid) (username : String) (connectionId : Uuid)
  | removeConnection (userId connectionId : Uuid)
  | subscribeChannel (userId channelId : Uuid)
  | unsubscribeChannel (userId channelId : Uuid)
  | subscribeTeam (userId teamId : Uuid)
  | unsubscribeTeam (userId teamId : Uuid)
  | setPresence (userId : Uuid) (status : String)
deriving DecidableEq

namespace WsHub

def apply (hub : WsHub) : HubOp → WsHub
  | .addConnection userId username connectionId => hub.addConnection userId username connectionId
  | .removeConnection userId connectionId => hub.removeConnection userId connectionId
  | .subscribeChannel userId channelId => hub.subscribeChannel userId channelId
  | .unsubscribeChannel userId channelId => hub.unsubscribeChannel userId channelId
  | .subscribeTeam userId teamId => hub.subscribeTeam userId teamId
  | .unsubscribeTeam userId teamId => hub.unsubscribeTeam userId teamId
  | .setPresence userId status => hub.setPresence userId status

def run (ops : List HubOp) : WsHub := ops.foldl apply new

theorem run_concat (ops : List HubOp) (op : HubOp) : run (ops ++ [op]) = (run ops).apply op := by
  simp [run]

end WsHub

section Subscriptions

variable {subs : Assoc Uuid (List Uuid)} {u v key key' : Uuid}

theorem mem_subscribers_subscribe :
    v ∈ subscribers (subscribe subs u key) key' ↔ (v = u ∧ key' = key) ∨ v ∈ subscribers subs key' := by
  rw [subscribers, subscribe, Assoc.lookup_insert_eq]
  by_cases hk : key' = key
  · subst key'
    rw [if_pos rfl, Option.getD_some]
    show _ ↔ _ ∨ v ∈ (subs.lookup key).getD []
    split
    · next hmem =>
      constructor
      · exact .inr
      · rintro (⟨rfl, -⟩ | h)
        · exact hmem
        · exact h
    · rw [List.mem_append, List.mem_singleton]
      simp [or_comm]
  · rw [if_neg hk]
    simp [hk, subscribers]

theorem mem_subscribers_unsubscribe :
    v ∈ subscribers (unsubscribe subs u key) key' ↔ ¬ (v = u ∧ key' = key) ∧ v ∈ subscribers subs key' := by
  rw [subscribers, unsubscribe, Assoc.lookup_modify]
  by_cases hk : key' = key
  · subst key'
    rw [if_pos rfl, subscribers]
    cases subs.lookup key with
    | none => simp
    | some users => simp [and_comm]
  · rw [if_neg hk]
    simp [hk, subscribers]

theorem nodup_subscribe (h : ∀ key, (subscribers subs key).Nodup) :
    ∀ key', (subscribers (subscribe subs u key) key').Nodup := by
  intro key'
  have hk := h key
  rw [subscribers, subscribe, Assoc.lookup_insert_eq]
  split
  · rw [Option.getD_some]
    show (if u ∈ subscribers subs key then subscribers subs key else subscribers subs key ++ [u]).Nodup
    split
    · exact hk
    · next hmem => rw [← List.concat_eq_append]; exact hk.concat hmem
  · exact h key'

theorem nodup_unsubscribe (h : ∀ key, (subscribers subs key).Nodup) :
    ∀ key', (subscribers (unsubscribe subs u key) key').Nodup := by
  intro key'
  have hk := h key
  rw [subscribers, unsubscribe, Assoc.lookup_modify]
  split
  · rw [subscribers] at hk
    cases hl : subs.lookup key with
    | none => exact List.nodup_nil
    | some users => rw [hl] at hk; exact List.Nodup.filter _ hk
  · exact h key'

end Subscriptions

namespace WsHub

variable {hub : WsHub} {u v c d key : Uuid} {name : String}

/-- `c` is an open connection of `u`. -/
def IsConnected (hub : WsHub) (u c : Uuid) : Prop :=
  ∃ userConnections, hub.connections.lookup u = some userConnections ∧ c ∈ userConnections.keys

instance (hub : WsHub) (u c : Uuid) : Decidable (hub.IsConnected u c) :=
  match h : hub.connections.lookup u with
  | some ucs => decidable_of_iff (c ∈ ucs.keys) (by simp [IsConnected, h])
  | none => .isFalse (by simp [IsConnected, h])

theorem isConnected_addConnection :
    (hub.addConnection u name c).IsConnected v d ↔ (v = u ∧ d = c) ∨ hub.IsConnected v d := by
  unfold IsConnected addConnection
  by_cases hv : v = u
  · subst v
    have hmem : ∀ m : Assoc Uuid Unit, d ∈ (m.insert c ()).keys ↔ d = c ∨ d ∈ m.keys :=
      fun _ => Assoc.mem_keys_insert
    simp only [AList.lookup_insert, Option.some.injEq, exists_eq_left', hmem, true_and]
    cases hub.connections.lookup u with
    | none => simp
    | some userConnections => simp
  · simp [hv]

theorem isConnected_removeConnection :
    (hub.removeConnection u c).IsConnected v d ↔ ¬ (v = u ∧ d = c) ∧ hub.IsConnected v d := by
  cases hl : hub.connections.lookup u with
  | none =>
    simp only [removeConnection, hl]
    refine ⟨fun h => ⟨?_, h⟩, fun h => h.2⟩
    rintro ⟨rfl, -⟩
    obtain ⟨_, h, -⟩ := h
    rw [hl] at h; cases h
  | some ucs =>
    have hmem : d ∈ (ucs.erase c).keys ↔ d ≠ c ∧ d ∈ ucs.keys := Assoc.mem_keys_erase
    by_cases hv : v = u
    · subst v
      have hcon : hub.IsConnected u d ↔ d ∈ ucs.keys := by simp [IsConnected, hl]
      rw [hcon]
      simp only [removeConnection, hl, true_and]
      split
      · next hempty =>
        rw [hempty] at hmem
        simpa [IsConnected, Assoc.lookup_erase_eq] using hmem
      · simpa [IsConnected, Assoc.lookup_insert_eq] using hmem
    · simp only [removeConnection, hl]
      split
      · simp [IsConnected, hv]
      · simp [IsConnected, hv]

theorem IsConnected.apply (h : hub.IsConnected u c) {op : HubOp} (hne : op ≠ .removeConnection u c) :
    (hub.apply op).IsConnected u c := by
  cases op with
  | addConnection v name d => exact isConnected_addConnection.2 (.inr h)
  | removeConnection v d =>
    refine isConnected_removeConnection.2 ⟨?_, h⟩
    rintro ⟨rfl, rfl⟩
    exact hne rfl
  | _ => exact h

theorem removeConnection_channelSubscriptions :
    (hub.removeConnection u c).channelSubscriptions = hub.channelSubscriptions := by
  unfold removeConnection
  split
  · split <;> rfl
  · rfl

theorem removeConnection_teamSubscriptions :
    (hub.removeConnection u c).teamSubscriptions = hub.teamSubscriptions := by
  unfold removeConnection
  split
  · split <;> rfl
  · rfl

/-- No subscriber list holds a user twice. -/
structure Ok (hub : WsHub) : Prop where
  channels : ∀ channelId, (subscribers hub.channelSubscriptions channelId).Nodup
  teams : ∀ teamId, (subscribers hub.teamSubscriptions teamId).Nodup

theorem Ok.new : Ok new := ⟨fun _ => List.nodup_nil, fun _ => List.nodup_nil⟩

theorem Ok.apply (h : hub.Ok) (op : HubOp) : (hub.apply op).Ok := by
  cases op with
  | addConnection u name c => exact ⟨h.channels, h.teams⟩
  | removeConnection u c =>
    refine ⟨?_, ?_⟩
    · show ∀ ch, (subscribers (hub.removeConnection u c).channelSubscriptions ch).Nodup
      rw [removeConnection_channelSubscriptions]; exact h.channels
    · show ∀ t, (subscribers (hub.removeConnection u c).teamSubscriptions t).Nodup
      rw [removeConnection_teamSubscriptions]; exact h.teams
  | subscribeChannel u ch => exact ⟨nodup_subscribe h.channels, h.teams⟩
  | unsubscribeChannel u ch => exact ⟨nodup_unsubscribe h.channels, h.teams⟩
  | subscribeTeam u t => exact ⟨h.channels, nodup_subscribe h.teams⟩
  | unsubscribeTeam u t => exact ⟨h.channels, nodup_unsubscribe h.teams⟩
  | setPresence u status => exact ⟨h.channels, h.teams⟩

theorem ok_run (ops : List HubOp) : (run ops).Ok := by
  induction ops using List.reverseRecOn with
  | nil => exact Ok.new
  | append_singleton ops op ih => rw [run_concat]; exact ih.apply op

/-! ### The history behind a state -/

/-- `c` was opened by `u` and not closed since. -/
def LiveIn (ops : List HubOp) (u c : Uuid) : Prop :=
  Run.LastIs (fun op => ∃ name, op = .addConnection u name c) (· = .removeConnection u c) ops

/-- The last operation of `u` on the channel was a subscribe. -/
def SubscribedIn (ops : List HubOp) (u channelId : Uuid) : Prop :=
  Run.LastIs (· = .subscribeChannel u channelId) (· = .unsubscribeChannel u channelId) ops

/-- The last operation of `u` on the team was a subscribe. -/
def TeamSubscribedIn (ops : List HubOp) (u teamId : Uuid) : Prop :=
  Run.LastIs (· = .subscribeTeam u teamId) (· = .unsubscribeTeam u teamId) ops

theorem isConnected_run (ops : List HubOp) : (run ops).IsConnected u c ↔ LiveIn ops u c := by
  induction ops using List.reverseRecOn with
  | nil => exact ⟨fun ⟨_, h, _⟩ => by (cases h), fun h => absurd h Run.not_lastIs_nil⟩
  | append_singleton ops op ih =>
    rw [run_concat, LiveIn, Run.lastIs_concat, ← LiveIn, ← ih]
    cases op with
    | addConnection v name d =>
      show ((run ops).addConnection v name d).IsConnected u c ↔ _
      rw [isConnected_addConnection]
      simp [eq_comm]
    | removeConnection v d =>
      show ((run ops).removeConnection v d).IsConnected u c ↔ _
      rw [isConnected_removeConnection]
      simp [eq_comm]
    | _ => simp [WsHub.apply, IsConnected, subscribeChannel, unsubscribeChannel, subscribeTeam, unsubscribeTeam,
        setPresence]

theorem mem_channelSubscriptions_run (ops : List HubOp) :
    u ∈ subscribers (run ops).channelSubscriptions key ↔ SubscribedIn ops u key := by
  induction ops using List.reverseRecOn with
  | nil => exact ⟨fun h => absurd h List.not_mem_nil, fun h => absurd h Run.not_lastIs_nil⟩
  | append_singleton ops op ih =>
    rw [run_concat, SubscribedIn, Run.lastIs_concat, ← SubscribedIn, ← ih]
    cases op with
    | subscribeChannel v ch =>
      show u ∈ subscribers (subscribe (run ops).channelSubscriptions v ch) key ↔ _
      rw [mem_subscribers_subscribe]
      simp [eq_comm]
    | unsubscribeChannel v ch =>
      show u ∈ subscribers (unsubscribe (run ops).channelSubscriptions v ch) key ↔ _
      rw [mem_subscribers_unsubscribe]
      simp [eq_comm]
    | removeConnection v c =>
      have hc : ((run ops).removeConnection v c).channelSubscriptions = (run ops).channelSubscriptions :=
        removeConnection_channelSubscriptions
      simp [WsHub.apply, hc]
    | _ => simp [WsHub.apply, addConnection, subscribeTeam, unsubscribeTeam, setPresence]

theorem mem_teamSubscriptions_run (ops : List HubOp) :
    u ∈ subscribers (run ops).teamSubscriptions key ↔ TeamSubscribedIn ops u key := by
  induction ops using List.reverseRecOn with
  | nil => exact ⟨fun h => absurd h List.not_mem_nil, fun h => absurd h Run.not_lastIs_nil⟩
  | append_singleton ops op ih =>
    rw [run_concat, TeamSubscribedIn, Run.lastIs_concat, ← TeamSubscribedIn, ← ih]
    cases op with
    | subscribeTeam v t =>
      show u ∈ subscribers (subscribe (run ops).teamSubscriptions v t) key ↔ _
      rw [mem_subscribers_subscribe]
      simp [eq_comm]
    | unsubscribeTeam v t =>
      show u ∈ subscribers (unsubscribe (run ops).teamSubscriptions v t) key ↔ _
      rw [mem_subscribers_unsubscribe]
      simp [eq_comm]
    | removeConnection v c =>
      have hc : ((run ops).removeConnection v c).teamSubscriptions = (run ops).teamSubscriptions :=
        removeConnection_teamSubscriptions
      simp [WsHub.apply, hc]
    | _ => simp [WsHub.apply, addConnection, subscribeChannel, unsubscribeChannel, setPresence]

/-! ### Delivery -/

/-- The messages handed to the connection `c` of `u`, in order. -/
def handedTo (ds : List Delivery) (u c : Uuid) : List String :=
  (ds.filter fun d => d.userId = u ∧ d.connectionId = c).map Delivery.message

/-- The users that a broadcast addresses. -/
def Addressed (hub : WsHub) (b : Option WsBroadcast) (u : Uuid) : Prop :=
  match b with
  | none => True
  | some b =>
    match b.channelId, b.teamId, b.userId with
    | some ch, _, _ => u ∈ subscribers hub.channelSubscriptions ch ∧ b.excludeUserId ≠ some u
    | none, some t, _ => u ∈ subscribers hub.teamSubscriptions t ∧ b.excludeUserId ≠ some u
    | none, none, some v => u = v
    | none, none, none => False

instance (hub : WsHub) (b : Option WsBroadcast) (u : Uuid) : Decidable (hub.Addressed b u) :=
  match b with
  | none => .isTrue trivial
  | some ⟨some _, _, _, exclude⟩ => inferInstanceAs (Decidable (_ ∈ _ ∧ exclude ≠ some u))
  | some ⟨none, some _, _, exclude⟩ => inferInstanceAs (Decidable (_ ∈ _ ∧ exclude ≠ some u))
  | some ⟨none, none, some v, _⟩ => inferInstanceAs (Decidable (u = v))
  | some ⟨none, none, none, _⟩ => .isFalse id

theorem mem_sendTo {d : Delivery} {message : String} (h : d ∈ hub.sendTo message v) :
    d.userId = v ∧ d.message = message := by
  unfold sendTo at h
  split at h
  · obtain ⟨c, -, rfl⟩ := List.mem_map.1 h
    exact ⟨rfl, rfl⟩
  · cases h

theorem handedTo_sendTo_of_ne {message : String} (h : v ≠ u) : handedTo (hub.sendTo message v) u c = [] := by
  rw [handedTo, List.filter_eq_nil_iff.2, List.map_nil]
  intro d hd
  simp only [decide_eq_true_eq, not_and]
  intro hu
  exact absurd ((mem_sendTo hd).1.symm.trans hu) h

theorem handedTo_sendTo {message : String} :
    (hub.IsConnected u c → handedTo (hub.sendTo message u) u c = [message]) ∧
      (¬ hub.IsConnected u c → handedTo (hub.sendTo message u) u c = []) := by
  unfold sendTo IsConnected
  cases hub.connections.lookup u with
  | none => exact ⟨fun ⟨_, h, _⟩ => by (cases h), fun _ => rfl⟩
  | some ucs =>
    have hcopies : handedTo (ucs.keys.map fun d => (⟨u, d, message⟩ : Delivery)) u c =
        (ucs.keys.filter (· = c)).map fun _ => message := by
      rw [handedTo, List.filter_map, List.map_map]
      simp [Function.comp_def]
    simp only [Option.some.injEq, exists_eq_left', hcopies]
    constructor
    · intro h
      rw [List.filter_eq, List.count_eq_one_of_mem ucs.keys_nodup h]; rfl
    · intro h
      rw [List.filter_eq, List.count_eq_zero.2 h]; rfl

theorem handedTo_flatMap {us : List Uuid} (hn : us.Nodup) {f : Uuid → List Delivery}
    (hf : ∀ v, v ≠ u → handedTo (f v) u c = []) :
    handedTo (us.flatMap f) u c = if u ∈ us then handedTo (f u) u c else [] := by
  have happ : ∀ as bs, handedTo (as ++ bs) u c = handedTo as u c ++ handedTo bs u c := fun as bs => by
    simp [handedTo]
  induction us with
  | nil => rfl
  | cons v us ih =>
    obtain ⟨hv, hn⟩ := List.nodup_cons.1 hn
    rw [List.flatMap_cons, happ, ih hn]
    by_cases huv : u = v
    · subst v
      rw [if_neg hv, if_pos List.mem_cons_self, List.append_nil]
    · rw [hf v (Ne.symm huv), List.nil_append]
      simp [huv]

theorem handedTo_sendToSubscribers {message : String} {exclude : Option Uuid} {us : List Uuid} (hn : us.Nodup) :
    handedTo (hub.sendToSubscribers message exclude us) u c =
      if u ∈ us ∧ exclude ≠ some u then handedTo (hub.sendTo message u) u c else [] := by
  rw [sendToSubscribers, handedTo_flatMap hn]
  · by_cases hu : u ∈ us <;> by_cases he : exclude = some u <;> simp [hu, he, handedTo]
  · intro v hv
    split
    · rfl
    · exact handedTo_sendTo_of_ne hv

theorem handedTo_broadcastLocal (h : hub.Ok) (env : WsEnvelope) (u c : Uuid) :
    (hub.IsConnected u c ∧ hub.Addressed env.broadcast u →
        handedTo (hub.broadcastLocal env) u c = [env.serialize]) ∧
      (¬ (hub.IsConnected u c ∧ hub.Addressed env.broadcast u) →
        handedTo (hub.broadcastLocal env) u c = []) := by
  have hsend : (hub.IsConnected u c → handedTo (hub.sendTo env.serialize u) u c = [env.serialize]) ∧
      (¬ hub.IsConnected u c → handedTo (hub.sendTo env.serialize u) u c = []) := handedTo_sendTo
  unfold broadcastLocal Addressed
  cases env.broadcast with
  | none =>
    have hkeys : hub.IsConnected u c → u ∈ hub.connections.keys := by
      rintro ⟨ucs, hl, -⟩
      rw [← AList.mem_keys, ← AList.lookup_isSome, hl]; rfl
    simp only [and_true]
    rw [handedTo_flatMap hub.connections.keys_nodup fun v hv => handedTo_sendTo_of_ne hv]
    constructor
    · intro hc
      rw [if_pos (hkeys hc), hsend.1 hc]
    · intro hc
      rw [hsend.2 hc, ite_self]
  | some b =>
    simp only
    split
    · rw [handedTo_sendToSubscribers (h.channels _)]
      constructor
      · rintro ⟨hc, ha⟩
        rw [if_pos ha, hsend.1 hc]
      · intro hno
        split
        · next ha => exact hsend.2 fun hc => hno ⟨hc, ha⟩
        · rfl
    · rw [handedTo_sendToSubscribers (h.teams _)]
      constructor
      · rintro ⟨hc, ha⟩
        rw [if_pos ha, hsend.1 hc]
      · intro hno
        split
        · next ha => exact hsend.2 fun hc => hno ⟨hc, ha⟩
        · rfl
    · rename_i v _ _ _
      by_cases hv : u = v
      · subst v
        simpa using hsend
      · simp only [hv, and_false, false_implies, not_false_eq_true, forall_const, true_and]
        exact handedTo_sendTo_of_ne (Ne.symm hv)
    · simp [handedTo]

theorem mem_handedTo {ds : List Delivery} {m : String} :
    m ∈ handedTo ds u c ↔ ∃ d ∈ ds, d.userId = u ∧ d.connectionId = c ∧ d.message = m := by
  simp [handedTo, and_assoc]

theorem exists_delivery_iff {env : WsEnvelope} (h : hub.Ok) :
    (∃ d ∈ hub.broadcastLocal env, d.userId = v) ↔
      (∃ c, hub.IsConnected v c) ∧ hub.Addressed env.broadcast v := by
  constructor
  · rintro ⟨d, hd, rfl⟩
    by_contra hno
    have hnil := (handedTo_broadcastLocal h env d.userId d.connectionId).2
      fun hyes => hno ⟨⟨_, hyes.1⟩, hyes.2⟩
    have hmem : d.message ∈ handedTo (hub.broadcastLocal env) d.userId d.connectionId :=
      mem_handedTo.2 ⟨d, hd, rfl, rfl, rfl⟩
    rw [hnil] at hmem; cases hmem
  · rintro ⟨⟨c, hc⟩, ha⟩
    have hmem : env.serialize ∈ handedTo (hub.broadcastLocal env) v c := by
      rw [(handedTo_broadcastLocal h env v c).1 ⟨hc, ha⟩]; exact List.mem_singleton_self _
    obtain ⟨d, hd, hv, -, -⟩ := mem_handedTo.1 hmem
    exact ⟨d, hd, hv⟩

/-- After any run of operations a user is subscribed exactly if its last operation on the channel or
team was a subscribe, and a broadcast hands exactly one copy to each live connection of each
addressed user and none to any other connection. -/
theorem run_broadcastLocal (ops : List HubOp) :
    (∀ u channelId, u ∈ subscribers (run ops).channelSubscriptions channelId ↔ SubscribedIn ops u channelId) ∧
    (∀ u teamId, u ∈ subscribers (run ops).teamSubscriptions teamId ↔ TeamSubscribedIn ops u teamId) ∧
    ∀ env u c,
      (LiveIn ops u c ∧ (run ops).Addressed env.broadcast u →
        handedTo ((run ops).broadcastLocal env) u c = [env.serialize]) ∧
      (¬ (LiveIn ops u c ∧ (run ops).Addressed env.broadcast u) →
        handedTo ((run ops).broadcastLocal env) u c = []) := by
  refine ⟨fun u ch => mem_channelSubscriptions_run ops, fun u t => mem_teamSubscriptions_run ops, ?_⟩
  intro env u c
  rw [← isConnected_run]
  exact handedTo_broadcastLocal (ok_run ops) env u c

end WsHub

end Rustchat
