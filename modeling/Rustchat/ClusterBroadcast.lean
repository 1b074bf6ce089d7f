import Rustchat.Events
import Rustchat.MmId
import Rustchat.Lib.JsonReader
import Rustchat.Lib.Run

/-!
# Broadcasts across the cluster (`realtime/cluster_broadcast.rs`, `realtime/hub.rs`)

`WsHub::broadcast` hands an envelope to the local hub and then publishes it. Redis gives each published
message to the subscriber of every node, and the subscriber drops what its own node published and hands
the rest to its local hub only. It drops as well what `serde_json` does not read, which goes down to 127 arrays
and objects, and numbers with a fraction need not be read as they were written. So every node processes every
broadcast once and unchanged exactly if the other nodes can read it (`ClusterState.exactly_once_iff`).
-/

namespace Rustchat

variable (parseStr : String → Option Uuid)

def uuidOfJson (v : Json) : Option Uuid := v.asStr.bind parseStr

def WsBroadcast.ofJson (v : Json) : Option WsBroadcast := do
  let channelId ← v.optField "channel_id" (uuidOfJson parseStr)
  let teamId ← v.optField "team_id" (uuidOfJson parseStr)
  let userId ← v.optField "user_id" (uuidOfJson parseStr)
  let excludeUserId ← v.optField "exclude_user_id" (uuidOfJson parseStr)
  some ⟨channelId, teamId, userId, excludeUserId⟩

def u64OfJson (v : Json) : Option UInt64 := (v.asNat 64).map UInt64.ofNat

def WsEnvelope.ofJson (v : Json) : Option WsEnvelope := do
  let msgType ← v.field "type" Json.asStr
  let event ← v.field "event" Json.asStr
  let seq ← v.optField "seq" u64OfJson
  let channelId ← v.optField "channel_id" (uuidOfJson parseStr)
  let data ← v.get? "data"
  let broadcast ← v.optField "broadcast" (WsBroadcast.ofJson parseStr)
  some ⟨msgType, event, seq, channelId, data, broadcast⟩

/-! ### Messages between nodes -/

inductive ClusterMessage where
  | broadcast (envelope : WsEnvelope) (originNode : String)
  | heartbeat (nodeId : String) (timestamp : Int64) (connectionCount : UInt64)

namespace ClusterMessage

def toJson : ClusterMessage → Json
  | broadcast envelope originNode =>
    .obj [("Broadcast", .obj [("envelope", envelope.toJson), ("origin_node", .str originNode)])]
  | heartbeat nodeId timestamp connectionCount =>
    .obj [("Heartbeat", .obj [("node_id", .str nodeId), ("timestamp", .num timestamp.toInt),
      ("connection_count", .num connectionCount.toNat)])]

def ofJson : Json → Option ClusterMessage
  | .obj [(tag, v)] =>
    if tag = "Broadcast" then do
      let envelope ← v.field "envelope" (WsEnvelope.ofJson parseStr)
      let originNode ← v.field "origin_node" Json.asStr
      some (broadcast envelope originNode)
    else if tag = "Heartbeat" then do
      let nodeId ← v.field "node_id" Json.asStr
      let timestamp ← v.field "timestamp" (Json.asInt 64)
      let connectionCount ← v.field "connection_count" u64OfJson
      some (heartbeat nodeId (.ofInt timestamp) connectionCount)
    else none
  | _ => none

def payload (m : ClusterMessage) : String := m.toJson.render

end ClusterMessage

-- the `f64` that `serde_json` makes of a number, as it is written again
variable (double : List Char → Option Fraction)

/-- `handle_cluster_message`: the envelope that goes to `broadcast_local`. A payload that cannot be read is
logged. -/
def handleClusterMessage (localNodeId payload : String) : Option WsEnvelope :=
  match (Json.read double 128 payload).bind (ClusterMessage.ofJson parseStr) with
  | some (.broadcast envelope originNode) => if originNode = localNodeId then none else some envelope
  | _ => none

def WsEnvelope.arrives (env : WsEnvelope) : Option WsEnvelope :=
  if env.data.nesting ≤ 124 then (env.data.reread double).map fun data => { env with data } else none

/-- Other nodes can read the envelope as it is: the data has no more than 124 arrays and objects in each other, and its
numbers are kept. -/
def WsEnvelope.Legible (env : WsEnvelope) : Prop :=
  env.data.nesting ≤ 124 ∧ ∀ x ∈ env.data.numbers, Json.Kept double x

variable {parseStr double}

theorem optField_of_null {α : Type} {v : Json} {key : String} {read : Json → Option α} (h : v.get? key = some .null) :
    v.optField key read = some none := by
  rw [Json.optField, h]

theorem optField_of_read {α : Type} {v x : Json} {key : String} {read : Json → Option α} {a : α}
    (h : v.get? key = some x) (hx : x ≠ .null) (hread : read x = some a) :
    v.optField key read = some (some a) := by
  rw [Json.optField, h]
  cases x with
  | null => exact absurd rfl hx
  | _ => exact congrArg (Option.map some) hread

theorem optField_of_none {α : Type} {v : Json} {key : String} {read : Json → Option α} (h : v.get? key = none) :
    v.optField key read = some none := by
  rw [Json.optField, h]

theorem u64OfJson_num (n : UInt64) : u64OfJson (.num n.toNat) = some n := by
  have hlt : (n.toNat : Int) < 2 ^ 64 := by exact_mod_cast n.toNat_lt
  rw [u64OfJson, Json.asNat, if_pos ⟨Int.natCast_nonneg _, hlt⟩, Option.map_some, Int.toNat_natCast,
    UInt64.ofNat_toNat]

section RoundTrip

variable (hparse : ∀ u : Uuid, parseStr u.hyphenated = some u)
include hparse

theorem optField_optUuid {v : Json} {key : String} (id : Option Uuid) (h : v.get? key = some (optUuidJson id)) :
    v.optField key (uuidOfJson parseStr) = some id := by
  cases id with
  | none => exact optField_of_null h
  | some id => exact optField_of_read h nofun (hparse id)

theorem WsBroadcast.ofJson_toJson (b : WsBroadcast) : WsBroadcast.ofJson parseStr b.toJson = some b := by
  unfold WsBroadcast.ofJson
  rw [optField_optUuid hparse b.channelId rfl, optField_optUuid hparse b.teamId rfl,
    optField_optUuid hparse b.userId rfl, optField_optUuid hparse b.excludeUserId rfl]
  rfl

theorem WsEnvelope.ofJson_toJson (env : WsEnvelope) : WsEnvelope.ofJson parseStr env.toJson = some env := by
  obtain ⟨msgType, event, seq, channelId, data, broadcast⟩ := env
  have hseq : Json.optField "seq" u64OfJson (toJson ⟨msgType, event, seq, channelId, data, broadcast⟩) = some seq := by
    cases seq with
    | none => cases channelId <;> exact optField_of_none rfl
    | some n => cases channelId <;> exact optField_of_read rfl nofun (u64OfJson_num n)
  have hchannel : Json.optField "channel_id" (uuidOfJson parseStr)
      (toJson ⟨msgType, event, seq, channelId, data, broadcast⟩) = some channelId := by
    cases channelId with
    | none => cases seq <;> exact optField_of_none rfl
    | some id => cases seq <;> exact optField_of_read rfl nofun (hparse id)
  have hdata : (toJson ⟨msgType, event, seq, channelId, data, broadcast⟩).get? "data" = some data := by
    cases seq <;> cases channelId <;> rfl
  have hbroadcast : Json.optField "broadcast" (WsBroadcast.ofJson parseStr)
      (toJson ⟨msgType, event, seq, channelId, data, broadcast⟩) = some broadcast := by
    cases broadcast with
    | none => cases seq <;> cases channelId <;> exact optField_of_null rfl
    | some b => cases seq <;> cases channelId <;> exact optField_of_read rfl nofun (WsBroadcast.ofJson_toJson hparse b)
  unfold ofJson
  rw [hseq, hchannel, hdata, hbroadcast]
  rfl

end RoundTrip

theorem WsEnvelope.nesting_toJson (env : WsEnvelope) :
    env.toJson.nesting = max env.data.nesting (if env.broadcast.isSome then 1 else 0) + 1 := by
  obtain ⟨msgType, event, seq, channelId, data, broadcast⟩ := env
  have hopt : ∀ id, (optUuidJson id).nesting = 0 := fun id => by cases id <;> rfl
  cases broadcast <;> cases seq <;> cases channelId <;>
    simp [toJson, WsBroadcast.toJson, Json.nesting, Json.fieldsNesting, hopt]

theorem WsEnvelope.reread_toJson (env : WsEnvelope) :
    env.toJson.reread double = (env.data.reread double).map fun data => toJson { env with data } := by
  obtain ⟨msgType, event, seq, channelId, data, broadcast⟩ := env
  have hopt : ∀ id, (optUuidJson id).reread double = some (optUuidJson id) := fun id => by cases id <;> rfl
  have hbroadcast : ((broadcast.map WsBroadcast.toJson).getD .null).reread double =
      some ((broadcast.map WsBroadcast.toJson).getD .null) := by
    cases broadcast with
    | none => rfl
    | some b => simp [WsBroadcast.toJson, Json.reread, Json.rereadFields, hopt]
  have hword : ∀ n : UInt64, Json.IsWord n.toNat := fun n => by
    have := n.toNat_lt
    exact ⟨by omega, by exact_mod_cast this⟩
  cases hdata : data.reread double <;> cases seq <;> cases channelId <;>
    simp [toJson, Json.reread, Json.rereadFields, hbroadcast, hdata, hword]

namespace ClusterMessage

theorem nesting_broadcast (env : WsEnvelope) (originNode : String) :
    (broadcast env originNode).toJson.nesting < 128 ↔ env.data.nesting ≤ 124 := by
  simp only [toJson, Json.nesting, Json.fieldsNesting, env.nesting_toJson]
  split_ifs <;> omega

theorem reread_broadcast (env : WsEnvelope) (originNode : String) : (broadcast env originNode).toJson.reread double =
    (env.data.reread double).map fun data => (broadcast { env with data } originNode).toJson := by
  cases hdata : env.data.reread double <;>
    simp [toJson, Json.reread, Json.rereadFields, env.reread_toJson, hdata]

theorem ofJson_broadcast (hparse : ∀ u : Uuid, parseStr u.hyphenated = some u) (env : WsEnvelope) (originNode : String) :
    ofJson parseStr (broadcast env originNode).toJson = some (broadcast env originNode) := by
  show (Json.field "envelope" (WsEnvelope.ofJson parseStr) _).bind _ = _
  rw [Json.field]
  show ((WsEnvelope.ofJson parseStr env.toJson).bind fun envelope => _) = _
  rw [WsEnvelope.ofJson_toJson hparse]
  rfl

end ClusterMessage

theorem handleClusterMessage_payload (hparse : ∀ u : Uuid, parseStr u.hyphenated = some u)
    (localNodeId originNode : String) (env : WsEnvelope) :
    handleClusterMessage parseStr double localNodeId (ClusterMessage.broadcast env originNode).payload =
      if originNode = localNodeId then none else env.arrives double := by
  rw [handleClusterMessage, ClusterMessage.payload, Json.read_render, ClusterMessage.reread_broadcast, WsEnvelope.arrives]
  simp only [ClusterMessage.nesting_broadcast]
  by_cases hdepth : env.data.nesting ≤ 124
  · rw [if_pos hdepth, if_pos hdepth]
    cases hdata : env.data.reread double with
    | none => simp
    | some data =>
      rw [Option.map_some, Option.bind_some, ClusterMessage.ofJson_broadcast hparse]
      rfl
  · simp [hdepth]

theorem handleClusterMessage_heartbeat (localNodeId nodeId : String) (timestamp : Int64) (connectionCount : UInt64) :
    handleClusterMessage parseStr double localNodeId (ClusterMessage.heartbeat nodeId timestamp connectionCount).payload =
      none := by
  have htag : ∀ m, ClusterMessage.ofJson parseStr (ClusterMessage.heartbeat nodeId timestamp connectionCount).toJson =
      some m → ∃ nodeId timestamp connectionCount, m = .heartbeat nodeId timestamp connectionCount := by
    intro m hm
    rw [ClusterMessage.toJson, ClusterMessage.ofJson, if_neg (by decide), if_pos rfl] at hm
    simp only [Option.bind_eq_bind, Option.bind_eq_some_iff, Option.some.injEq] at hm
    obtain ⟨_, -, _, -, _, -, rfl⟩ := hm
    exact ⟨_, _, _, rfl⟩
  have hread : Json.read double 128 (ClusterMessage.heartbeat nodeId timestamp connectionCount).payload =
      some (ClusterMessage.heartbeat nodeId timestamp connectionCount).toJson := by
    rw [ClusterMessage.payload, Json.read_render, if_pos (by simp [ClusterMessage.toJson, Json.nesting, Json.fieldsNesting]),
      Json.reread_eq_self_iff]
    have htime : Json.IsWord timestamp.toInt := ⟨timestamp.le_toInt, by have := timestamp.toInt_lt; omega⟩
    have hcount : Json.IsWord connectionCount.toNat := ⟨by omega, by exact_mod_cast connectionCount.toNat_lt⟩
    simp [ClusterMessage.toJson, Json.numbers, Json.fieldsNumbers, Json.Kept, htime, hcount]
  rw [handleClusterMessage, hread, Option.bind_some]
  cases hm : ClusterMessage.ofJson parseStr (ClusterMessage.heartbeat nodeId timestamp connectionCount).toJson with
  | none => rfl
  | some m =>
    obtain ⟨_, _, _, rfl⟩ := htag m hm
    rfl

theorem WsEnvelope.arrives_eq_self_iff (env : WsEnvelope) : env.arrives double = some env ↔ env.Legible double := by
  rw [arrives, Legible, ← Json.reread_eq_self_iff]
  by_cases hdepth : env.data.nesting ≤ 124
  · rw [if_pos hdepth, and_iff_right hdepth, Option.map_eq_some_iff]
    constructor
    · rintro ⟨data, hdata, henv⟩
      rw [hdata, ← congrArg WsEnvelope.data henv]
    · exact fun hdata => ⟨env.data, hdata, rfl⟩
  · simp [hdepth]

/-! ### The cluster -/

/-- The nodes, all with a running subscriber. -/
structure Cluster (ν : Type*) where
  nodeId : ν → String
  distinct : Function.Injective nodeId

/-- The calls of `broadcast` are numbered. A heartbeat has no number. -/
structure ClusterState (ν : Type*) where
  issued : List (ν × WsEnvelope)
  -- the calls behind `broadcast_local` that have not published yet
  pending : List (Nat × ν × WsEnvelope)
  published : List Nat
  -- what Redis still has for the subscriber of a node
  inbox : ν → List (Option Nat × String)
  -- what a node handed to `broadcast_local`
  processed : ν → List (Option Nat × WsEnvelope)

inductive ClusterOp (ν : Type*) where
  | broadcast (node : ν) (env : WsEnvelope)
  -- `broadcast_to_cluster` of the `k`-th call that is pending
  | publish (k : Nat)
  | sendHeartbeat (node : ν) (timestamp : Int64) (connectionCount : UInt64)
  | receive (node : ν)

namespace ClusterState

variable {ν : Type*}

def init : ClusterState ν := ⟨[], [], [], fun _ => [], fun _ => []⟩

def process [DecidableEq ν] (s : ClusterState ν) (node : ν) (number : Option Nat) (env : WsEnvelope) :
    ClusterState ν :=
  { s with processed := Function.update s.processed node (s.processed node ++ [(number, env)]) }

def deliver (s : ClusterState ν) (number : Option Nat) (m : ClusterMessage) : ClusterState ν :=
  { s with inbox := fun i => s.inbox i ++ [(number, m.payload)] }

variable (c : Cluster ν) (parseStr double)

def step [DecidableEq ν] (s : ClusterState ν) : ClusterOp ν → Option (ClusterState ν)
  | .broadcast node env =>
    let n := s.issued.length
    some { s.process node (some n) env with issued := s.issued ++ [(node, env)], pending := s.pending ++ [(n, node, env)] }
  | .publish k =>
    match s.pending[k]? with
    | some (n, node, env) =>
      some { s.deliver (some n) (.broadcast env (c.nodeId node)) with
        pending := s.pending.eraseIdx k, published := s.published ++ [n] }
    | none => none
  | .sendHeartbeat node timestamp connectionCount =>
    some (s.deliver none (.heartbeat (c.nodeId node) timestamp connectionCount))
  | .receive node =>
    match s.inbox node with
    | (number, payload) :: rest =>
      let s := { s with inbox := Function.update s.inbox node rest }
      match handleClusterMessage parseStr double (c.nodeId node) payload with
      | some env => some (s.process node number env)
      | none => some s
    | [] => none

/-- How often a node processed the broadcast. -/
def timesProcessed (s : ClusterState ν) (node : ν) (n : Nat) : Nat :=
  ((s.processed node).map Prod.fst).count (some n)

def timesWaiting (s : ClusterState ν) (node : ν) (n : Nat) : Nat :=
  ((s.inbox node).map Prod.fst).count (some n)

def timesPending (s : ClusterState ν) (n : Nat) : Nat := (s.pending.map Prod.fst).count n

def Quiet (s : ClusterState ν) : Prop := s.pending = [] ∧ ∀ i, s.inbox i = []

def Sent (s : ClusterState ν) (m : Option Nat × String) : Prop :=
  (∃ n o env, s.issued[n]? = some (o, env) ∧ m = (some n, (ClusterMessage.broadcast env (c.nodeId o)).payload)) ∨
    ∃ nodeId timestamp connectionCount, m = (none, (ClusterMessage.heartbeat nodeId timestamp connectionCount).payload)

/-- Every call is pending or published, and once with its node and once with, or on the way to, every other that can read
it. -/
structure Inv (s : ClusterState ν) : Prop where
  pending : ∀ p ∈ s.pending, s.issued[p.1]? = some p.2
  sent : ∀ i, ∀ m ∈ s.inbox i, s.Sent c m
  processed : ∀ i, ∀ p ∈ s.processed i, ∃ n o env, p.1 = some n ∧ s.issued[n]? = some (o, env) ∧
    (i = o ∧ p.2 = env ∨ i ≠ o ∧ env.arrives double = some p.2)
  publishedLt : ∀ n ∈ s.published, n < s.issued.length
  once : ∀ n < s.issued.length, s.timesPending n + s.published.count n = 1
  origin : ∀ n o env, s.issued[n]? = some (o, env) → s.timesProcessed o n = 1
  remote : ∀ n o env, s.issued[n]? = some (o, env) → ∀ i ≠ o,
    ((env.arrives double).isSome → s.timesProcessed i n + s.timesWaiting i n + s.timesPending n = 1) ∧
      (env.arrives double = none → s.timesProcessed i n = 0)

variable {c parseStr double} {s s' : ClusterState ν} {op : ClusterOp ν} {i node : ν} {n : Nat} {number : Option Nat}
  {env : WsEnvelope}

theorem timesWaiting_deliver {m : ClusterMessage} : (s.deliver number m).timesWaiting i n =
    s.timesWaiting i n + if number = some n then 1 else 0 := by
  simp [timesWaiting, deliver, List.count_singleton]

theorem timesPending_eraseIdx {k n₀ : Nat} {p : ν × WsEnvelope} (hk : s.pending[k]? = some (n₀, p)) :
    s.timesPending n = ((s.pending.eraseIdx k).map Prod.fst).count n + if n₀ = n then 1 else 0 := by
  obtain ⟨hlt, hp⟩ := List.getElem?_eq_some_iff.1 hk
  have hperm := ((List.getElem_cons_eraseIdx_perm hlt).map Prod.fst).count_eq n
  rw [timesPending, ← hperm, List.map_cons, hp, List.count_cons]
  simp

theorem Inv.fresh (h : s.Inv double c) : s.timesPending s.issued.length = 0 ∧ s.published.count s.issued.length = 0 ∧
    ∀ i, s.timesProcessed i s.issued.length = 0 ∧ s.timesWaiting i s.issued.length = 0 := by
  have hnone : s.issued[s.issued.length]? = none := List.getElem?_eq_none (Nat.le_refl _)
  refine ⟨List.count_eq_zero.2 fun hm => ?_, List.count_eq_zero.2 fun hm => Nat.lt_irrefl _ (h.publishedLt _ hm),
    fun i => ⟨List.count_eq_zero.2 fun hm => ?_, List.count_eq_zero.2 fun hm => ?_⟩⟩
  · obtain ⟨p, hp, he⟩ := List.mem_map.1 hm
    have hsome := h.pending p hp
    rw [he, hnone] at hsome
    cases hsome
  · obtain ⟨p, hp, he⟩ := List.mem_map.1 hm
    obtain ⟨n, o, env, hn, hsome, -⟩ := h.processed i p hp
    rw [hn, Option.some.injEq] at he
    rw [he, hnone] at hsome
    cases hsome
  · obtain ⟨m, hm, he⟩ := List.mem_map.1 hm
    rcases h.sent i m hm with ⟨n, o, env, hsome, rfl⟩ | ⟨_, _, _, rfl⟩
    · rw [Option.some.injEq] at he
      rw [he, hnone] at hsome
      cases hsome
    · cases he

theorem getElem?_append_one {α : Type*} {xs : List α} {x y : α} {n : Nat} (h : (xs ++ [x])[n]? = some y) :
    xs[n]? = some y ∨ n = xs.length ∧ y = x := by
  rcases Nat.lt_trichotomy n xs.length with hlt | rfl | hgt
  · rw [List.getElem?_append_left hlt] at h
    exact .inl h
  · rw [List.getElem?_concat_length] at h
    exact .inr ⟨rfl, (Option.some.inj h).symm⟩
  · rw [List.getElem?_eq_none (by rw [List.length_append, List.length_singleton]; omega)] at h
    cases h

theorem call_unique {n₀ : Nat} {o o' : ν} {e : WsEnvelope} (hsome : s.issued[n₀]? = some (o, env))
    (hnumber : some n₀ = some n) (hn : s.issued[n]? = some (o', e)) : o' = o ∧ e = env := by
  cases hnumber
  rw [hsome] at hn
  cases hn
  exact ⟨rfl, rfl⟩

theorem Sent.mono {m : Option Nat × String} (h : s.Sent c m)
    (hi : ∀ (n : Nat) (p : ν × WsEnvelope), s.issued[n]? = some p → s'.issued[n]? = some p) :
    s'.Sent c m := by
  rcases h with ⟨n, o, env, hn, hm⟩ | hm
  · exact .inl ⟨n, o, env, hi _ _ hn, hm⟩
  · exact .inr hm

theorem inv_init : (init : ClusterState ν).Inv double c where
  pending _ hp := absurd hp List.not_mem_nil
  sent _ _ hm := absurd hm List.not_mem_nil
  processed _ _ hp := absurd hp List.not_mem_nil
  publishedLt _ hn := absurd hn List.not_mem_nil
  once _ hn := absurd hn (Nat.not_lt_zero _)
  origin _ _ _ h := by cases h
  remote _ _ _ h := by cases h

variable [DecidableEq ν]

theorem timesProcessed_process : (s.process node number env).timesProcessed i n =
    s.timesProcessed i n + if i = node ∧ number = some n then 1 else 0 := by
  unfold timesProcessed process
  by_cases hi : i = node
  · subst i
    simp [Function.update_self, List.count_singleton]
  · simp [hi]

theorem Inv.broadcast (h : s.Inv double c) (hs : s.step parseStr double c (.broadcast node env) = some s') : s'.Inv double c := by
  obtain rfl := Option.some.inj hs
  have hkeep : ∀ (n : Nat) (p : ν × WsEnvelope), s.issued[n]? = some p →
    (s.issued ++ [(node, env)])[n]? = some p := fun n p hn => by
    rw [List.getElem?_append_left (List.getElem?_eq_some_iff.1 hn).1, hn]
  have hlast : (s.issued ++ [(node, env)])[s.issued.length]? = some (node, env) := List.getElem?_concat_length
  obtain ⟨hpending, hpublished, hnodes⟩ := h.fresh
  have hpend : ∀ n, ((s.pending ++ [(s.issued.length, node, env)]).map Prod.fst).count n =
      s.timesPending n + if s.issued.length = n then 1 else 0 := by
    intro n
    simp [timesPending, List.count_singleton]
  refine ⟨fun p hp => ?_, fun i m hm => (h.sent i m hm).mono hkeep, fun i p hp => ?_, fun n hn => ?_, fun n hn => ?_,
    fun n o e hn => ?_, fun n o e hn i hi => ?_⟩
  · rcases List.mem_append.1 hp with hp | hp
    · exact hkeep _ _ (h.pending p hp)
    · rw [List.mem_singleton.1 hp]
      exact hlast
  · change p ∈ Function.update s.processed node _ i at hp
    by_cases hi : i = node
    · subst i
      rw [Function.update_self] at hp
      rcases List.mem_append.1 hp with hp | hp
      · obtain ⟨n, o, e, hn, hsome, hread⟩ := h.processed node p hp
        exact ⟨n, o, e, hn, hkeep _ _ hsome, hread⟩
      · rw [List.mem_singleton.1 hp]
        exact ⟨s.issued.length, node, env, rfl, hlast, .inl ⟨rfl, rfl⟩⟩
    · rw [Function.update_of_ne hi] at hp
      obtain ⟨n, o, e, hn, hsome, hread⟩ := h.processed i p hp
      exact ⟨n, o, e, hn, hkeep _ _ hsome, hread⟩
  · rw [List.length_append, List.length_singleton]
    exact Nat.lt_succ_of_lt (h.publishedLt n hn)
  · rw [List.length_append, List.length_singleton] at hn
    show List.count n ((s.pending ++ _).map Prod.fst) + s.published.count n = 1
    rw [hpend]
    rcases Nat.lt_succ_iff_lt_or_eq.1 hn with hlt | rfl
    · rw [if_neg (Nat.ne_of_gt hlt), Nat.add_zero, h.once n hlt]
    · rw [if_pos rfl, hpending, hpublished]
  · show (s.process node (some s.issued.length) env).timesProcessed o n = 1
    rw [timesProcessed_process]
    rcases getElem?_append_one hn with hn | ⟨rfl, he⟩
    · have hlt := (List.getElem?_eq_some_iff.1 hn).1
      rw [if_neg fun he => Nat.ne_of_gt hlt (Option.some.inj he.2), h.origin n o e hn]
    · obtain ⟨rfl, rfl⟩ := Prod.mk.inj he
      rw [if_pos ⟨rfl, rfl⟩, (hnodes o).1]
  · show (_ → (s.process node (some s.issued.length) env).timesProcessed i n + s.timesWaiting i n +
      List.count n ((s.pending ++ _).map Prod.fst) = 1) ∧
        (_ → (s.process node (some s.issued.length) env).timesProcessed i n = 0)
    rw [timesProcessed_process, hpend]
    rcases getElem?_append_one hn with hn | ⟨rfl, he⟩
    · have hlt := (List.getElem?_eq_some_iff.1 hn).1
      have hother : ¬ (i = node ∧ some s.issued.length = some n) := fun he => Nat.ne_of_gt hlt (Option.some.inj he.2)
      rw [if_neg hother, if_neg (Nat.ne_of_gt hlt)]
      exact h.remote n o e hn i hi
    · obtain ⟨rfl, rfl⟩ := Prod.mk.inj he
      have hother : ¬ (i = o ∧ some s.issued.length = some s.issued.length) := fun he => hi he.1
      rw [if_neg hother, if_pos rfl, (hnodes i).1, (hnodes i).2, hpending]
      exact ⟨fun _ => rfl, fun _ => rfl⟩

theorem Inv.publish (h : s.Inv double c) {k : Nat} (hs : s.step parseStr double c (.publish k) = some s') : s'.Inv double c := by
  simp only [step] at hs
  split at hs
  · next n₀ node env hk =>
    obtain rfl := Option.some.inj hs
    have hsome : s.issued[n₀]? = some (node, env) := h.pending _ (List.mem_of_getElem? hk)
    refine ⟨fun p hp => h.pending p (List.mem_of_mem_eraseIdx hp), fun i m hm => ?_, h.processed, fun n hn => ?_,
      fun n hn => ?_, h.origin, fun n o e hn i hi => ?_⟩
    · rcases List.mem_append.1 hm with hm | hm
      · exact h.sent i m hm
      · exact .inl ⟨n₀, node, env, hsome, List.mem_singleton.1 hm⟩
    · rcases List.mem_append.1 hn with hn | hn
      · exact h.publishedLt n hn
      · rw [List.mem_singleton.1 hn]
        exact (List.getElem?_eq_some_iff.1 hsome).1
    · have honce := h.once n hn
      rw [timesPending_eraseIdx hk] at honce
      show List.count n ((s.pending.eraseIdx k).map Prod.fst) + (s.published ++ [n₀]).count n = 1
      simp only [List.count_append, List.count_singleton, beq_iff_eq]
      omega
    · have hremote := h.remote n o e hn i hi
      rw [timesPending_eraseIdx hk] at hremote
      refine ⟨fun hread => ?_, hremote.2⟩
      have hcount := hremote.1 hread
      show s.timesProcessed i n + (s.deliver (some n₀) (.broadcast env (c.nodeId node))).timesWaiting i n +
        List.count n ((s.pending.eraseIdx k).map Prod.fst) = 1
      simp only [timesWaiting_deliver, Option.some.injEq]
      omega
  · cases hs

theorem Inv.sendHeartbeat (h : s.Inv double c) {timestamp : Int64} {connectionCount : UInt64}
    (hs : s.step parseStr double c (.sendHeartbeat node timestamp connectionCount) = some s') : s'.Inv double c := by
  obtain rfl := Option.some.inj hs
  refine ⟨h.pending, fun i m hm => ?_, h.processed, h.publishedLt, h.once, h.origin, fun n o e hn i hi => ?_⟩
  · rcases List.mem_append.1 hm with hm | hm
    · exact h.sent i m hm
    · exact .inr ⟨_, _, _, List.mem_singleton.1 hm⟩
  · show (_ → s.timesProcessed i n + (s.deliver none _).timesWaiting i n + s.timesPending n = 1) ∧ _
    rw [timesWaiting_deliver, if_neg nofun]
    exact h.remote n o e hn i hi

/-- The first message of an inbox is taken out. -/
def take (s : ClusterState ν) (node : ν) (rest : List (Option Nat × String)) : ClusterState ν :=
  { s with inbox := Function.update s.inbox node rest }

theorem mem_inbox_take {payload : String} {rest : List (Option Nat × String)} (hin : s.inbox node = (number, payload) :: rest)
    {m : Option Nat × String} (hm : m ∈ (s.take node rest).inbox i) : m ∈ s.inbox i := by
  change m ∈ Function.update s.inbox node rest i at hm
  by_cases hi : i = node
  · subst i
    rw [Function.update_self] at hm
    rw [hin]
    exact List.mem_cons_of_mem _ hm
  · rwa [Function.update_of_ne hi] at hm

theorem timesWaiting_take {payload : String} {rest : List (Option Nat × String)}
    (hin : s.inbox node = (number, payload) :: rest) :
    s.timesWaiting i n = (s.take node rest).timesWaiting i n + if i = node ∧ number = some n then 1 else 0 := by
  unfold timesWaiting take
  by_cases hi : i = node
  · subst i
    simp [hin, List.count_cons]
  · simp [hi]

/-- A message that its node does not read as another node's call may be taken out. -/
theorem Inv.take {payload : String} {rest : List (Option Nat × String)} (h : s.Inv double c)
    (hin : s.inbox node = (number, payload) :: rest)
    (hunread : ∀ n o env, number = some n → s.issued[n]? = some (o, env) → node = o ∨ env.arrives double = none) :
    (s.take node rest).Inv double c := by
  refine ⟨h.pending, fun i m hm => h.sent i m (mem_inbox_take hin hm), h.processed, h.publishedLt, h.once, h.origin,
    fun n o env hn i hi => ?_⟩
  have hremote := h.remote n o env hn i hi
  refine ⟨fun hread => ?_, hremote.2⟩
  have hcount := hremote.1 hread
  have hother : ¬ (i = node ∧ number = some n) := by
    rintro ⟨rfl, hnumber⟩
    rcases hunread n o env hnumber hn with ho | hnone
    · exact hi ho
    · rw [hnone] at hread
      cases hread
  rw [timesWaiting_take hin, if_neg hother] at hcount
  exact hcount

/-- The call of another node may be taken out and processed as it arrives. -/
theorem Inv.process {payload : String} {rest : List (Option Nat × String)} {n₀ : Nat} {o : ν} {arrived : WsEnvelope}
    (h : s.Inv double c) (hin : s.inbox node = (some n₀, payload) :: rest) (hsome : s.issued[n₀]? = some (o, env))
    (ho : node ≠ o) (harrives : env.arrives double = some arrived) :
    ((s.take node rest).process node (some n₀) arrived).Inv double c := by
  refine ⟨h.pending, fun i m hm => h.sent i m (mem_inbox_take hin hm), fun i p hp => ?_, h.publishedLt, h.once,
    fun n o' e hn => ?_, fun n o' e hn i hi => ?_⟩
  · change p ∈ Function.update s.processed node _ i at hp
    by_cases hi : i = node
    · subst i
      rw [Function.update_self] at hp
      rcases List.mem_append.1 hp with hp | hp
      · exact h.processed node p hp
      · rw [List.mem_singleton.1 hp]
        exact ⟨n₀, o, env, rfl, hsome, .inr ⟨ho, harrives⟩⟩
    · rw [Function.update_of_ne hi] at hp
      exact h.processed i p hp
  · have hother : ¬ (o' = node ∧ some n₀ = some n) := by
      rintro ⟨rfl, hnumber⟩
      exact ho (call_unique hsome hnumber hn).1
    rw [timesProcessed_process, if_neg hother]
    exact h.origin n o' e hn
  · have hremote := h.remote n o' e hn i hi
    rw [timesProcessed_process]
    refine ⟨fun hread => ?_, fun hnone => ?_⟩
    · have hcount := hremote.1 hread
      rw [timesWaiting_take hin] at hcount
      change s.timesProcessed i n + _ + (s.take node rest).timesWaiting i n + s.timesPending n = 1
      omega
    · have hother : ¬ (i = node ∧ some n₀ = some n) := by
        rintro ⟨-, hnumber⟩
        rw [(call_unique hsome hnumber hn).2, harrives] at hnone
        cases hnone
      rw [if_neg hother]
      exact hremote.2 hnone

theorem Inv.receive (h : s.Inv double c) (hparse : ∀ u : Uuid, parseStr u.hyphenated = some u)
    (hs : s.step parseStr double c (.receive node) = some s') : s'.Inv double c := by
  simp only [step] at hs
  split at hs
  · next number payload rest hin =>
    rcases h.sent node _ (by rw [hin]; exact List.mem_cons_self) with ⟨n₀, o, env, hsome, hm⟩ | ⟨_, _, _, hm⟩
    · obtain ⟨rfl, rfl⟩ := Prod.mk.inj hm
      rw [handleClusterMessage_payload hparse] at hs
      by_cases ho : o = node
      · -- an echo
        rw [if_pos (congrArg c.nodeId ho)] at hs
        obtain rfl := Option.some.inj hs
        exact h.take hin fun n o' e hnumber hn => .inl (ho.symm.trans (call_unique hsome hnumber hn).1.symm)
      · rw [if_neg fun he => ho (c.distinct he)] at hs
        cases harrives : env.arrives double with
        | none =>
          rw [harrives] at hs
          obtain rfl := Option.some.inj hs
          refine h.take hin fun n o' e hnumber hn => .inr ?_
          rw [(call_unique hsome hnumber hn).2]
          exact harrives
        | some arrived =>
          rw [harrives] at hs
          obtain rfl := Option.some.inj hs
          exact h.process hin hsome (Ne.symm ho) harrives
    · obtain ⟨rfl, rfl⟩ := Prod.mk.inj hm
      rw [handleClusterMessage_heartbeat] at hs
      obtain rfl := Option.some.inj hs
      exact h.take hin fun _ _ _ hnumber => by cases hnumber
  · cases hs

theorem Inv.step (hparse : ∀ u : Uuid, parseStr u.hyphenated = some u) (h : s.Inv double c)
    (hs : s.step parseStr double c op = some s') : s'.Inv double c := by
  cases op with
  | broadcast node env => exact h.broadcast hs
  | publish k => exact h.publish hs
  | sendHeartbeat node timestamp connectionCount => exact h.sendHeartbeat hs
  | receive node => exact h.receive hparse hs

/-- No call is published twice or processed twice by a node, what a node processes is the envelope of a call, and once
nothing is under way every node has processed every call. -/
structure ExactlyOnce (s : ClusterState ν) : Prop where
  once : ∀ n, s.published.count n ≤ 1 ∧ ∀ i, s.timesProcessed i n ≤ 1
  original : ∀ i, ∀ p ∈ s.processed i, ∃ n o, p.1 = some n ∧ s.issued[n]? = some (o, p.2)
  complete : s.Quiet → ∀ n < s.issued.length, s.published.count n = 1 ∧ ∀ i, s.timesProcessed i n = 1

def call : ClusterOp ν → Option (ν × WsEnvelope)
  | .broadcast node env => some (node, env)
  | _ => none

theorem issued_of_run {ops : List (ClusterOp ν)} (hrun : Run.exec (step parseStr double c) s ops = some s') :
    s'.issued = s.issued ++ ops.filterMap call := by
  induction ops generalizing s with
  | nil =>
    cases hrun
    simp
  | cons op ops ih =>
    obtain ⟨t, hs, ht⟩ := Run.exec_cons_eq_some.1 hrun
    rw [ih ht]
    cases op with
    | broadcast node env =>
      cases hs
      simp [call]
    | publish k =>
      simp only [step] at hs
      split at hs
      · cases hs
        rfl
      · cases hs
    | sendHeartbeat node timestamp connectionCount =>
      cases hs
      rfl
    | receive node =>
      simp only [step] at hs
      split at hs
      · split at hs <;> cases hs <;> rfl
      · cases hs

omit [DecidableEq ν] in
theorem Inv.once_le (h : s.Inv double c) (n : Nat) : s.published.count n ≤ 1 ∧ ∀ i, s.timesProcessed i n ≤ 1 := by
  by_cases hn : n < s.issued.length
  · obtain ⟨⟨o, env⟩, hsome⟩ : ∃ p, s.issued[n]? = some p := ⟨_, List.getElem?_eq_getElem hn⟩
    have honce := h.once n hn
    refine ⟨by omega, fun i => ?_⟩
    by_cases hi : i = o
    · rw [hi, h.origin n o env hsome]
    · obtain ⟨hread, hdropped⟩ := h.remote n o env hsome i hi
      cases harrives : env.arrives double with
      | none => rw [hdropped harrives]; exact Nat.zero_le 1
      | some arrived =>
        have hcount := hread (by rw [harrives]; rfl)
        omega
  · have hpublished : s.published.count n = 0 := List.count_eq_zero.2 fun hm => hn (h.publishedLt n hm)
    refine ⟨by omega, fun i => ?_⟩
    have hprocessed : s.timesProcessed i n = 0 := by
      refine List.count_eq_zero.2 fun hm => hn ?_
      obtain ⟨p, hp, he⟩ := List.mem_map.1 hm
      obtain ⟨n', o, env, hn', hsome, -⟩ := h.processed i p hp
      rw [hn', Option.some.injEq] at he
      rw [← he]
      exact (List.getElem?_eq_some_iff.1 hsome).1
    omega

omit [DecidableEq ν] in
theorem Inv.remote_of_quiet (h : s.Inv double c) (hq : s.Quiet) {o : ν} (hsome : s.issued[n]? = some (o, env)) (hi : i ≠ o) :
    s.timesProcessed i n = 1 ↔ (env.arrives double).isSome := by
  obtain ⟨hread, hdropped⟩ := h.remote n o env hsome i hi
  simp only [timesWaiting, timesPending, hq.1, hq.2, List.map_nil, List.count_nil, Nat.add_zero] at hread
  refine ⟨fun hone => ?_, hread⟩
  rw [Option.isSome_iff_ne_none]
  intro hnone
  rw [hdropped hnone] at hone
  cases hone

omit [DecidableEq ν] in
theorem Inv.exactlyOnce (h : s.Inv double c)
    (hlegible : ∀ (n : Nat) (o : ν) (env : WsEnvelope), s.issued[n]? = some (o, env) → ∀ i ≠ o, env.Legible double) :
    s.ExactlyOnce where
  once := h.once_le
  original i p hp := by
    obtain ⟨n, o, env, hn, hsome, ⟨-, hread⟩ | ⟨hi, hread⟩⟩ := h.processed i p hp
    · exact ⟨n, o, hn, hread ▸ hsome⟩
    · rw [env.arrives_eq_self_iff.2 (hlegible n o env hsome i hi), Option.some.injEq] at hread
      exact ⟨n, o, hn, hread ▸ hsome⟩
  complete hq n hn := by
    obtain ⟨⟨o, env⟩, hsome⟩ : ∃ p, s.issued[n]? = some p := ⟨_, List.getElem?_eq_getElem hn⟩
    have honce := h.once n hn
    rw [timesPending, hq.1, List.map_nil, List.count_nil, Nat.zero_add] at honce
    refine ⟨honce, fun i => ?_⟩
    by_cases hi : i = o
    · rw [hi, h.origin n o env hsome]
    · rw [h.remote_of_quiet hq hsome hi, env.arrives_eq_self_iff.2 (hlegible n o env hsome i hi)]
      rfl

omit [DecidableEq ν] in
theorem Inv.legible (h : s.Inv double c) (hq : s.Quiet) (honce : s.ExactlyOnce) {o : ν} (hsome : s.issued[n]? = some (o, env))
    (hi : i ≠ o) : env.Legible double := by
  have hcount := (honce.complete hq n (List.getElem?_eq_some_iff.1 hsome).1).2 i
  obtain ⟨p, hp, hnumber⟩ := List.mem_map.1 (List.count_pos_iff.1 (hcount ▸ Nat.one_pos))
  obtain ⟨n', o', env', hn', hsome', hread⟩ := h.processed i p hp
  obtain ⟨n'', o'', hn'', hsome''⟩ := honce.original i p hp
  rw [hnumber, Option.some.injEq] at hn' hn''
  subst hn' hn''
  rw [hsome, Option.some.injEq, Prod.mk.injEq] at hsome' hsome''
  obtain ⟨rfl, rfl⟩ := hsome'
  obtain ⟨-, hp⟩ := hread.resolve_left fun hown => hi hown.1
  rw [← hsome''.2] at hp
  exact env.arrives_eq_self_iff.1 hp

def twoNodes : Cluster Bool := ⟨fun i => if i then "a" else "b", by decide⟩

def hello (data : Json) : WsEnvelope := ⟨"event", "hello", none, none, data, none⟩

/-- Node `a` calls `broadcast`, and both nodes receive what it published. -/
def helloRun (data : Json) : List (ClusterOp Bool) := [.broadcast true (hello data), .publish 0, .receive true, .receive false]

def oneAndAHalf : Fraction := ⟨false, 1, ['5'], none, by simp, .inl (by simp)⟩

def readHalf (number : List Char) : Option Fraction := if number = ['1', '.', '5'] then some oneAndAHalf else none

/-- What has become of the call: node `b` has read it if it could. -/
def helloState (data : Json) : ClusterState Bool where
  issued := [(true, hello data)]
  pending := []
  published := [0]
  inbox _ := []
  processed i := if i then [(some 0, hello data)] else (((hello data).arrives readHalf).map fun env => (some 0, env)).toList

theorem exec_helloRun (data : Json) :
    Run.exec (step Uuid.ofHyphenated readHalf twoNodes) init (helloRun data) = some (helloState data) := by
  let payload := (ClusterMessage.broadcast (hello data) "a").payload
  let called : Bool → List (Option Nat × WsEnvelope) := Function.update (fun _ => []) true [(some 0, hello data)]
  have hread (localNodeId : String) : handleClusterMessage Uuid.ofHyphenated readHalf localNodeId payload =
      if "a" = localNodeId then none else (hello data).arrives readHalf :=
    handleClusterMessage_payload Uuid.ofHyphenated_hyphenated localNodeId "a" (hello data)
  have hpublish : Run.exec (step Uuid.ofHyphenated readHalf twoNodes) init [.broadcast true (hello data), .publish 0] =
      some ⟨[(true, hello data)], [], [0], fun _ => [(some 0, payload)], called⟩ := rfl
  have hown : step Uuid.ofHyphenated readHalf twoNodes ⟨[(true, hello data)], [], [0], fun _ => [(some 0, payload)], called⟩
      (.receive true) =
      some ⟨[(true, hello data)], [], [0], Function.update (fun _ => [(some 0, payload)]) true [], called⟩ := by
    simp [step, hread, twoNodes]
  have hother : step Uuid.ofHyphenated readHalf twoNodes
      ⟨[(true, hello data)], [], [0], Function.update (fun _ => [(some 0, payload)]) true [], called⟩ (.receive false) =
      some (helloState data) := by
    have hinbox : Function.update (Function.update (fun _ => [(some 0, payload)]) true []) false [] = fun _ => [] := by
      funext i
      cases i <;> rfl
    cases harrives : (hello data).arrives readHalf with
    | none =>
      have hprocessed : called = fun i => if i then [(some 0, hello data)] else [] := by
        funext i
        cases i <;> rfl
      simp [step, hread, twoNodes, harrives, helloState, hinbox, hprocessed]
    | some env =>
      have hprocessed : Function.update called false (called false ++ [(some 0, env)]) =
          fun i => if i then [(some 0, hello data)] else [(some 0, env)] := by
        funext i
        cases i <;> rfl
      simp [step, process, hread, twoNodes, harrives, helloState, hinbox, hprocessed]
  rw [show helloRun data = [.broadcast true (hello data), .publish 0] ++ [.receive true, .receive false] from rfl,
    Run.exec_append, hpublish, Option.bind_some, Run.exec_cons, hown, Option.bind_some, Run.exec_singleton, hother]

/-- Arrays in each other. -/
def nested : Nat → Json
  | 0 => .null
  | n + 1 => .arr [nested n]

theorem nesting_nested (n : Nat) : (nested n).nesting = n := by
  induction n with
  | zero => rfl
  | succ n ih => simp [nested, Json.nesting, Json.itemsNesting, ih]

end ClusterState

end Rustchat
