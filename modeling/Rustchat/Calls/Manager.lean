import Rustchat.Calls.State
import Rustchat.Lib.Prog

/-!
# The call manager (`calls_plugin/state.rs`)

Every node has the calls in its own maps (`CallManager`) and, unless it is set to keep them in memory only, in Redis
too. The methods of `CallStateManager` are programs over single accesses to these (`StoreAct`): a lock that is taken
and given back, or one Redis command, which may fail. `mutate_call` reads a call, changes its copy and writes it
back as a whole.

`ManagerAct.run` is what a method does when nothing comes between, on a node that keeps its calls in memory
(`eval_impl_memory`).
-/

namespace Rustchat.Calls

/-- The maps of a `CallStateManager`. -/
structure CallManager where
  calls : Assoc Uuid CallState
  channelIndex : Assoc Uuid Uuid
  keyed : ∀ id call, calls.lookup id = some call → call.callId = id

namespace CallManager

def empty : CallManager := ⟨∅, ∅, fun _ _ h => by rw [AList.lookup_empty] at h; cases h⟩

def upsertCallLocal (m : CallManager) (call : CallState) : CallManager where
  calls := m.calls.insert call.callId call
  channelIndex := m.channelIndex.insert call.channelId call.callId
  keyed id c h := by
    rcases Assoc.lookup_insert_cases h with ⟨rfl, rfl⟩ | ⟨-, h⟩
    · rfl
    · exact m.keyed id c h

def removeCallLocal (m : CallManager) (callId : Uuid) : CallManager where
  calls := m.calls.erase callId
  channelIndex :=
    match m.calls.lookup callId with
    | some call => m.channelIndex.erase call.channelId
    | none => m.channelIndex
  keyed id c h := m.keyed id c (Assoc.lookup_erase_cases h).2

def lookup (m : CallManager) (callId : Uuid) : Option CallState := m.calls.lookup callId

def lookupByChannel (m : CallManager) (channelId : Uuid) : Option CallState :=
  (m.channelIndex.lookup channelId).bind m.calls.lookup

def values (m : CallManager) : List CallState := m.calls.entries.map (·.2)

variable {m : CallManager} {call : CallState} {id : Uuid}

@[simp] theorem lookup_empty : empty.lookup id = none := AList.lookup_empty id

@[simp] theorem lookup_upsert :
    (m.upsertCallLocal call).lookup id = if id = call.callId then some call else m.lookup id :=
  Assoc.lookup_insert_eq

@[simp] theorem lookup_remove {id' : Uuid} :
    (m.removeCallLocal id').lookup id = if id = id' then none else m.lookup id := Assoc.lookup_erase_eq

theorem callId_of_lookup (h : m.lookup id = some call) : call.callId = id := m.keyed id call h

theorem mem_values : call ∈ m.values ↔ m.lookup call.callId = some call := by
  rw [values, List.mem_map]
  constructor
  · rintro ⟨⟨id, c⟩, he, rfl⟩
    have hl := Assoc.mem_entries_iff.1 he
    rw [m.keyed id c hl]
    exact hl
  · exact fun h => ⟨⟨call.callId, call⟩, Assoc.mem_entries_iff.2 h, rfl⟩

theorem lookup_of_lookupByChannel {ch : Uuid} (h : m.lookupByChannel ch = some call) :
    m.lookup call.callId = some call := by
  obtain ⟨id, -, hl⟩ := Option.bind_eq_some_iff.1 h
  rw [m.keyed id call hl]
  exact hl

end CallManager

/-- The two kinds of timeouts of a call. -/
inductive Timeout
  | unanswered
  | empty
deriving DecidableEq

/-- The calls that handlers make: the methods of the manager and the tasks that wait for a timeout. -/
inductive ManagerAct
  | getCall (callId : Uuid)
  | getCallByChannel (channelId : Uuid)
  | getAllCalls
  | addCall (call : CallState)
  | removeCall (callId : Uuid)
  | mutateCall (callId : Uuid) (mutation : Mutation)
  | scheduleTimeout (kind : Timeout) (callId : Uuid)

def ManagerAct.Res : ManagerAct → Type
  | getCall _ => Option CallState
  | getCallByChannel _ => Option CallState
  | getAllCalls => List CallState
  | addCall _ => Unit
  | removeCall _ => Unit
  | mutateCall _ _ => Unit
  | scheduleTimeout _ _ => Unit

def CallManager.mutate (m : CallManager) (callId : Uuid) (mutation : Mutation) : CallManager :=
  match m.lookup callId with
  | some call => m.upsertCallLocal (mutation.apply call)
  | none => m

@[simp] theorem CallManager.lookup_mutate {m : CallManager} {id id' : Uuid} {mutation : Mutation} :
    (m.mutate id' mutation).lookup id = if id = id' then (m.lookup id').map mutation.apply else m.lookup id := by
  cases h : m.lookup id' with
  | none =>
    rw [mutate, h, Option.map_none]
    show m.lookup id = _
    split
    · next hid => rw [hid, h]
    · rfl
  | some call =>
    rw [mutate, h, Option.map_some]
    show (m.upsertCallLocal (mutation.apply call)).lookup id = _
    rw [lookup_upsert, Mutation.apply_callId, m.callId_of_lookup h]

theorem CallManager.removeCallLocal_mutate (m : CallManager) (id : Uuid) (mutation : Mutation) :
    (m.mutate id mutation).removeCallLocal id = m.removeCallLocal id := by
  cases h : m.lookup id with
  | none => rw [mutate, h]
  | some call =>
    have hid : call.callId = id := callId_of_lookup h
    have hl : m.calls.lookup id = some call := h
    rw [mutate, h]
    show (m.upsertCallLocal (mutation.apply call)).removeCallLocal id = _
    have hupsert : (m.calls.insert id (mutation.apply call)).lookup id = some (mutation.apply call) :=
      Assoc.lookup_insert_self
    simp [removeCallLocal, upsertCallLocal, hid, hl, hupsert, Assoc.erase_insert_self]

/-- The methods on a node that keeps its calls in memory, one after another. -/
def ManagerAct.run : (act : ManagerAct) → CallManager → act.Res × CallManager
  | getCall callId, m => (m.lookup callId, m)
  | getCallByChannel channelId, m => (m.lookupByChannel channelId, m)
  | getAllCalls, m => (m.values, m)
  | addCall call, m => ((), m.upsertCallLocal call)
  | removeCall callId, m => ((), m.removeCallLocal callId)
  | mutateCall callId mutation, m => ((), m.mutate callId mutation)
  | scheduleTimeout _ _, m => ((), m)

/-- The keys `rustchat:calls:state:{call_id}`, `rustchat:calls:channel:{channel_id}` and `rustchat:calls:active`. -/
structure RedisCalls where
  state : Assoc Uuid CallState
  channel : Assoc Uuid Uuid
  active : List Uuid
  keyed : ∀ id call, state.lookup id = some call → call.callId = id

namespace RedisCalls

def empty : RedisCalls := ⟨∅, ∅, [], fun _ _ h => by rw [AList.lookup_empty] at h; cases h⟩

def setState (r : RedisCalls) (call : CallState) : RedisCalls where
  state := r.state.insert call.callId call
  channel := r.channel
  active := r.active
  keyed id c h := by
    rcases Assoc.lookup_insert_cases h with ⟨rfl, rfl⟩ | ⟨-, h⟩
    · rfl
    · exact r.keyed id c h

def delState (r : RedisCalls) (callId : Uuid) : RedisCalls where
  state := r.state.erase callId
  channel := r.channel
  active := r.active
  keyed id c h := r.keyed id c (Assoc.lookup_erase_cases h).2

end RedisCalls

/-- All nodes and the Redis that they share. -/
structure World where
  nodes : ℕ → CallManager
  redis : RedisCalls

def World.init : World := ⟨fun _ => .empty, .empty⟩

def World.updateNode (w : World) (n : ℕ) (f : CallManager → CallManager) : World :=
  { w with nodes := Function.update w.nodes n (f (w.nodes n)) }

def World.updateRedis (w : World) (f : RedisCalls → RedisCalls) : World := { w with redis := f w.redis }

inductive StoreAct
  -- `pool.get()`
  | redisConn
  | getState (callId : Uuid)
  | getChannel (channelId : Uuid)
  | activeMembers
  | setState (call : CallState)
  | setChannel (channelId callId : Uuid)
  | addActive (callId : Uuid)
  | delChannel (channelId : Uuid)
  | delState (callId : Uuid)
  | remActive (callId : Uuid)
  | upsertLocal (call : CallState)
  | removeLocal (callId : Uuid)
  | readLocal (callId : Uuid)
  | readLocalByChannel (channelId : Uuid)
  | readLocalValues
  | spawnTimeout (kind : Timeout) (callId : Uuid)

/-- What an access returns: `none` or `false` for a Redis command that fails, but the deletions ignore failures. -/
def StoreAct.Res : StoreAct → Type
  | redisConn => Bool
  | getState _ => Option (Option CallState)
  | getChannel _ => Option (Option Uuid)
  | activeMembers => Option (List Uuid)
  | setState _ => Bool
  | setChannel _ _ => Bool
  | addActive _ => Bool
  | delChannel _ => Unit
  | delState _ => Unit
  | remActive _ => Unit
  | upsertLocal _ => Unit
  | removeLocal _ => Option CallState
  | readLocal _ => Option CallState
  | readLocalByChannel _ => Option CallState
  | readLocalValues => List CallState
  | spawnTimeout _ _ => Unit

/-- What a Redis command meets: it fails before it has an effect, or its answer is lost. -/
inductive Outcome
  | ok
  | refused
  | unanswered
deriving DecidableEq

def Outcome.answer {α : Type} (o : Outcome) (a : α) : Option α := if o = .ok then some a else none

def Outcome.write (o : Outcome) (f : RedisCalls → RedisCalls) (w : World) : World :=
  if o = .refused then w else w.updateRedis f

theorem Outcome.nodes_write {o : Outcome} {f : RedisCalls → RedisCalls} {w : World} :
    (o.write f w).nodes = w.nodes := by
  unfold write
  split <;> rfl

theorem Outcome.redis_write {o : Outcome} {f : RedisCalls → RedisCalls} {w : World} :
    (o.write f w).redis = w.redis ∨ (o.write f w).redis = f w.redis := by
  unfold write
  split
  · exact .inl rfl
  · exact .inr rfl

/-- An access by node `n`. -/
def StoreAct.perform (n : ℕ) (o : Outcome) : (act : StoreAct) → World → act.Res × World
  | redisConn, w => (decide (o = .ok), w)
  | getState callId, w => (o.answer (w.redis.state.lookup callId), w)
  | getChannel channelId, w => (o.answer (w.redis.channel.lookup channelId), w)
  | activeMembers, w => (o.answer w.redis.active, w)
  | setState call, w => (decide (o = .ok), o.write (·.setState call) w)
  | setChannel channelId callId, w =>
    (decide (o = .ok), o.write (fun r => { r with channel := r.channel.insert channelId callId }) w)
  | addActive callId, w => (decide (o = .ok), o.write (fun r => { r with active := r.active.insert callId }) w)
  | delChannel channelId, w => ((), o.write (fun r => { r with channel := r.channel.erase channelId }) w)
  | delState callId, w => ((), o.write (·.delState callId) w)
  | remActive callId, w => ((), o.write (fun r => { r with active := r.active.erase callId }) w)
  | upsertLocal call, w => ((), w.updateNode n (·.upsertCallLocal call))
  | removeLocal callId, w => ((w.nodes n).lookup callId, w.updateNode n (·.removeCallLocal callId))
  | readLocal callId, w => ((w.nodes n).lookup callId, w)
  | readLocalByChannel channelId, w => ((w.nodes n).lookupByChannel channelId, w)
  | readLocalValues, w => ((w.nodes n).values, w)
  -- the task sleeps first; what it does then is a request of its own
  | spawnTimeout _ _, w => ((), w)

def StoreAct.written : StoreAct → Option CallState
  | setState call | upsertLocal call => some call
  | _ => none

def StoreAct.found : (act : StoreAct) → act.Res → List CallState
  | getState _, (found : Option (Option CallState)) => found.join.toList
  | removeLocal _, (found : Option CallState) => found.toList
  | readLocal _, (found : Option CallState) => found.toList
  | readLocalByChannel _, (found : Option CallState) => found.toList
  | readLocalValues, (calls : List CallState) => calls
  | _, _ => []

/-! ### The methods -/

abbrev StoreProg := Prog StoreAct StoreAct.Res

namespace Store

def redisConn : StoreProg Bool := Prog.call StoreAct.redisConn
def getState (callId : Uuid) : StoreProg (Option (Option CallState)) := Prog.call (StoreAct.getState callId)
def getChannel (channelId : Uuid) : StoreProg (Option (Option Uuid)) :=
  Prog.call (StoreAct.getChannel channelId)
def activeMembers : StoreProg (Option (List Uuid)) := Prog.call StoreAct.activeMembers
def setState (call : CallState) : StoreProg Bool := Prog.call (StoreAct.setState call)
def setChannel (channelId callId : Uuid) : StoreProg Bool := Prog.call (StoreAct.setChannel channelId callId)
def addActive (callId : Uuid) : StoreProg Bool := Prog.call (StoreAct.addActive callId)
def delChannel (channelId : Uuid) : StoreProg Unit := Prog.call (StoreAct.delChannel channelId)
def delState (callId : Uuid) : StoreProg Unit := Prog.call (StoreAct.delState callId)
def remActive (callId : Uuid) : StoreProg Unit := Prog.call (StoreAct.remActive callId)
def upsertLocal (call : CallState) : StoreProg Unit := Prog.call (StoreAct.upsertLocal call)
def removeLocal (callId : Uuid) : StoreProg (Option CallState) := Prog.call (StoreAct.removeLocal callId)
def readLocal (callId : Uuid) : StoreProg (Option CallState) := Prog.call (StoreAct.readLocal callId)
def readLocalByChannel (channelId : Uuid) : StoreProg (Option CallState) :=
  Prog.call (StoreAct.readLocalByChannel channelId)
def readLocalValues : StoreProg (List CallState) := Prog.call StoreAct.readLocalValues
def spawnTimeout (kind : Timeout) (callId : Uuid) : StoreProg Unit :=
  Prog.call (StoreAct.spawnTimeout kind callId)

end Store

inductive CallStateBackend
  | memory
  | redis
  | auto

structure CallStateManager where
  hasRedis : Bool
  backend : CallStateBackend

namespace CallStateManager

variable (mgr : CallStateManager)

def shouldUseRedis : Bool :=
  match mgr.backend with
  | .memory => false
  | .redis | .auto => mgr.hasRedis

def redisConn : StoreProg Bool := if mgr.shouldUseRedis then Store.redisConn else pure false

def redisSetCall (call : CallState) : StoreProg Unit := do
  if ← Store.setState call then
    if ← Store.setChannel call.channelId call.callId then
      let _ ← Store.addActive call.callId

def persistCall (call : CallState) : StoreProg Unit := do
  Store.upsertLocal call
  if ← mgr.redisConn then redisSetCall call

def addCall (call : CallState) : StoreProg Unit := mgr.persistCall call

/-- `redis_get_call_by_channel`; `none` for an error. -/
def redisGetCallByChannel (channelId : Uuid) : StoreProg (Option (Option CallState)) := do
  match ← Store.getChannel channelId with
  | none => pure none
  | some none => pure (some none)
  | some (some callId) => Store.getState callId

/-- A copy found in Redis is kept; without one the local copy is used. -/
def orLocal (found : Option (Option CallState)) (fallback : StoreProg (Option CallState)) :
    StoreProg (Option CallState) :=
  match found with
  | some (some call) => do
    Store.upsertLocal call
    pure (some call)
  | _ => fallback

/-- Ask Redis, if it is used. -/
def readThrough (query : StoreProg (Option (Option CallState))) (fallback : StoreProg (Option CallState)) :
    StoreProg (Option CallState) := do
  let found ← if ← mgr.redisConn then query else pure none
  orLocal found fallback

def getCall (callId : Uuid) : StoreProg (Option CallState) :=
  mgr.readThrough (Store.getState callId) (Store.readLocal callId)

def getCallByChannel (channelId : Uuid) : StoreProg (Option CallState) :=
  mgr.readThrough (redisGetCallByChannel channelId) (Store.readLocalByChannel channelId)

/-- The channel of a removed call; a call that was not here is looked up in Redis. -/
def removedChannel (callId : Uuid) : Option CallState → StoreProg (Option Uuid)
  | some call => pure (some call.channelId)
  | none => do
    let found ← Store.getState callId
    pure (found.join.map (·.channelId))

def delChannelOf : Option Uuid → StoreProg Unit
  | some channelId => Store.delChannel channelId
  | none => pure ()

def removeCall (callId : Uuid) : StoreProg Unit := do
  let removedCall ← Store.removeLocal callId
  if ← mgr.redisConn then
    let channelId ← removedChannel callId removedCall
    delChannelOf channelId
    Store.delState callId
    Store.remActive callId

/-- The calls with these ids; an error ends the loop. -/
def redisGetCalls : List Uuid → StoreProg (Option (List CallState))
  | [] => pure (some [])
  | callId :: callIds => do
    match ← Store.getState callId with
    | none => pure none
    | some found => do
      let calls ← redisGetCalls callIds
      pure (calls.map (found.toList ++ ·))

def redisGetAllCalls : StoreProg (Option (List CallState)) := do
  match ← Store.activeMembers with
  | none => pure none
  | some callIds => redisGetCalls callIds

def upsertAll : List CallState → StoreProg Unit
  | [] => pure ()
  | call :: calls => do
    Store.upsertLocal call
    upsertAll calls

def orLocalValues : List CallState → StoreProg (List CallState)
  | [] => Store.readLocalValues
  | calls => pure calls

def getAllCalls : StoreProg (List CallState) := do
  let found ← if ← mgr.redisConn then redisGetAllCalls else pure none
  upsertAll (found.getD [])
  orLocalValues (found.getD [])

def persistMutated (mutation : Mutation) : Option CallState → StoreProg Unit
  | some call => mgr.persistCall (mutation.apply call)
  | none => pure ()

def mutateCall (callId : Uuid) (mutation : Mutation) : StoreProg Unit := do
  let found ← mgr.getCall callId
  mgr.persistMutated mutation found

def impl : (act : ManagerAct) → StoreProg act.Res
  | .getCall callId => mgr.getCall callId
  | .getCallByChannel channelId => mgr.getCallByChannel channelId
  | .getAllCalls => mgr.getAllCalls
  | .addCall call => mgr.addCall call
  | .removeCall callId => mgr.removeCall callId
  | .mutateCall callId mutation => mgr.mutateCall callId mutation
  | .scheduleTimeout kind callId => Store.spawnTimeout kind callId

variable {mgr}

theorem redisConn_memory (h : mgr.shouldUseRedis = false) : mgr.redisConn = Prog.done false := by
  rw [redisConn, h]; rfl

theorem readThrough_memory (h : mgr.shouldUseRedis = false) {query : StoreProg (Option (Option CallState))}
    {fallback : StoreProg (Option CallState)} : mgr.readThrough query fallback = fallback := by
  rw [readThrough, redisConn_memory h]; rfl

/-- Without Redis a method that nothing interrupts does what `ManagerAct.run` says, and other nodes see nothing of
it. -/
theorem eval_impl_memory (h : mgr.shouldUseRedis = false) (n : ℕ) (o : Outcome) (act : ManagerAct) (w : World) :
    (mgr.impl act).eval (StoreAct.perform n o) w =
      ((act.run (w.nodes n)).1, w.updateNode n fun _ => (act.run (w.nodes n)).2) := by
  have hconn := redisConn_memory h
  have hsame : w.updateNode n (fun _ => w.nodes n) = w := by
    rw [World.updateNode, Function.update_eq_self]
  have hget : ∀ callId, mgr.getCall callId = Store.readLocal callId := fun _ => readThrough_memory h
  cases act with
  | getCall callId =>
    rw [impl, hget]
    exact Prod.ext rfl hsame.symm
  | getCallByChannel channelId =>
    rw [impl, getCallByChannel, readThrough_memory h]
    exact Prod.ext rfl hsame.symm
  | getAllCalls =>
    rw [impl, getAllCalls, hconn]
    exact Prod.ext rfl hsame.symm
  | addCall call => rw [impl, addCall, persistCall, hconn]; rfl
  | removeCall callId => rw [impl, removeCall, hconn]; rfl
  | mutateCall callId mutation =>
    show (mgr.mutateCall callId mutation).eval _ w = ((), w.updateNode n fun _ => (w.nodes n).mutate callId mutation)
    rw [mutateCall, hget, Prog.eval_bind, CallManager.mutate]
    show (mgr.persistMutated mutation ((w.nodes n).lookup callId)).eval _ w = _
    cases (w.nodes n).lookup callId with
    | none => exact Prod.ext rfl hsame.symm
    | some call => rw [persistMutated, persistCall, hconn]; rfl
  | scheduleTimeout kind callId => exact Prod.ext rfl hsame.symm

end CallStateManager

/-! ### Methods under way -/

structure Caller where
  node : ℕ
  act : ManagerAct

def ManagerAct.calls : (act : ManagerAct) → act.Res → List CallState
  | getCall _, found => found.toList
  | getCallByChannel _, found => found.toList
  | getAllCalls, calls => calls
  | addCall _, _ => []
  | removeCall _, _ => []
  | mutateCall _ _, _ => []
  | scheduleTimeout _ _, _ => []

namespace CallStateManager

variable (mgr : CallStateManager)

def method (caller : Caller) : StoreProg (List CallState) := do
  let r ← mgr.impl caller.act
  pure (caller.act.calls r)

abbrev Methods := Pool World Caller StoreAct StoreAct.Res (List CallState)

abbrev step : Methods → Pool.Input Caller Outcome → Option Methods :=
  Pool.step mgr.method fun caller => StoreAct.perform caller.node

end CallStateManager

end Rustchat.Calls
