import Mathlib.Data.List.Permutation
import Rustchat.Calls.Manager

/-!
# Concurrent changes of a call

`mutate_call` reads a call, changes the copy and writes it back, with nothing to keep others out in between. As long
as every write is what the change makes of the call as it is stored then, the stored call is what the changes make
one after another (`serial_of_orderly`). A write of what the change made of an older state undoes what came between
(`mute_lost`).
-/

namespace Rustchat.Calls

namespace CallStateManager

variable (mgr : CallStateManager) (callId : Uuid)

/-- The stored state of the call. Without Redis there is one node. -/
def stored (w : World) : Option CallState :=
  if mgr.shouldUseRedis then w.redis.state.lookup callId else (w.nodes 0).lookup callId

def concerns : ManagerAct → Bool
  | .mutateCall c _ => c == callId
  | .getCall _ | .getCallByChannel _ | .getAllCalls => true
  | _ => false

def admits : Pool.Input Caller Outcome → Bool
  | .spawn _ caller => (mgr.shouldUseRedis || caller.node == 0) && concerns callId caller.act
  | .step _ _ => true

def changeStep (s : Methods) (input : Pool.Input Caller Outcome) : Option Methods :=
  if mgr.admits callId input then mgr.step s input else none

def Writes : StoreAct → Prop
  | .setState _ | .delState _ => mgr.shouldUseRedis = true
  | .upsertLocal _ | .removeLocal _ => mgr.shouldUseRedis = false
  | _ => False

/-- Redis answers a change, and what the change writes is what it makes of the call as it is stored. -/
def Orderly (s : Methods) : Pool.Input Caller Outcome → Prop
  | .spawn _ _ => True
  | .step t o => ∀ node mutation act next, s.Performs t ⟨node, .mutateCall callId mutation⟩ act next →
    o = .ok ∧ (mgr.Writes act → act.written = (mgr.stored callId s.shared).map mutation.apply)

/-- The stored call is what the changes called so far make of the call `s₀` had, in some order. -/
def Serial (s₀ s : Methods) : Prop :=
  ∃ order : List (ℕ × Mutation), (order.map Prod.fst).Nodup ∧
    (∀ t mutation, (t, mutation) ∈ order ↔
      ∃ node prog, s.tasks.lookup t = some ⟨⟨node, .mutateCall callId mutation⟩, prog⟩) ∧
    mgr.stored callId s.shared = (mgr.stored callId s₀.shared).map fun call =>
      order.foldl (fun call change => change.2.apply call) call

/-- What the accesses of a change return when Redis answers and the call is stored. -/
def Answered : (act : StoreAct) → act.Res → Prop
  | .redisConn, (conn : Bool) => conn = true
  | .getState c, (found : Option (Option CallState)) =>
    mgr.shouldUseRedis = true → c = callId → ∃ call, found = some (some call)
  | .readLocal c, (found : Option CallState) => mgr.shouldUseRedis = false → c = callId →
    ∃ call, found = some call
  | _, _ => True

variable {mgr callId} {w : World} {act : StoreAct}

theorem not_writes_upsertLocal (h : mgr.shouldUseRedis = true) {call : CallState} :
    ¬ mgr.Writes (.upsertLocal call) := by
  rw [Writes, h]
  exact Bool.noConfusion

theorem redisConn_never : mgr.redisConn.Never mgr.Writes := by
  unfold redisConn
  split
  · exact ⟨not_false, fun _ _ => trivial⟩
  · exact trivial

theorem readThrough_never {query : StoreProg (Option (Option CallState))} {fallback : StoreProg (Option CallState)}
    (hq : query.Never mgr.Writes) (hf : fallback.Never mgr.Writes) :
    (mgr.readThrough query fallback).Never mgr.Writes := by
  cases h : mgr.shouldUseRedis with
  | false => rwa [readThrough_memory h]
  | true =>
    have hor : ∀ found, (orLocal found fallback).Never mgr.Writes := by
      rintro (_ | _ | call)
      · exact hf
      · exact hf
      · exact ⟨not_writes_upsertLocal h, fun _ _ => trivial⟩
    refine redisConn_never.bind fun conn _ => ?_
    cases conn with
    | false => exact hor none
    | true => exact hq.bind fun found _ => hor found

theorem getCall_never : (mgr.getCall callId).Never mgr.Writes :=
  readThrough_never ⟨not_false, fun _ _ => trivial⟩ ⟨not_false, fun _ _ => trivial⟩

theorem getCallByChannel_never {channelId : Uuid} : (mgr.getCallByChannel channelId).Never mgr.Writes := by
  refine readThrough_never ⟨not_false, fun found _ => ?_⟩ ⟨not_false, fun _ _ => trivial⟩
  rcases found with _ | _ | callId
  · exact trivial
  · exact trivial
  · exact ⟨not_false, fun _ _ => trivial⟩

theorem redisGetCalls_never (callIds : List Uuid) : (redisGetCalls callIds).Never mgr.Writes := by
  induction callIds with
  | nil => exact trivial
  | cons callId callIds ih =>
    refine ⟨not_false, fun found _ => ?_⟩
    cases found with
    | none => exact trivial
    | some found => exact ih.bind fun _ _ => trivial

theorem upsertAll_never (h : mgr.shouldUseRedis = true) (calls : List CallState) :
    (upsertAll calls).Never mgr.Writes := by
  induction calls with
  | nil => exact trivial
  | cons call calls ih =>
    exact ⟨not_writes_upsertLocal h, fun _ _ => ih⟩

theorem getAllCalls_never : mgr.getAllCalls.Never mgr.Writes := by
  have hlast : ∀ calls, (orLocalValues calls).Never mgr.Writes := by
    intro calls
    cases calls with
    | nil => exact ⟨not_false, fun _ _ => trivial⟩
    | cons call calls => exact trivial
  cases h : mgr.shouldUseRedis with
  | false =>
    rw [getAllCalls, redisConn_memory h]
    exact hlast []
  | true =>
    refine redisConn_never.bind fun conn _ => ?_
    cases conn with
    | false => exact (upsertAll_never h _).bind fun _ _ => hlast _
    | true =>
      have hread : redisGetAllCalls.Never mgr.Writes := by
        refine ⟨not_false, fun found _ => ?_⟩
        cases found with
        | none => exact trivial
        | some callIds => exact redisGetCalls_never callIds
      exact hread.bind fun found _ => (upsertAll_never h _).bind fun _ _ => hlast _

theorem getCall_answered : (mgr.getCall callId).Safe (fun act => ¬ mgr.Writes act)
    (Answered mgr callId) fun found =>
    ∃ call, found = some call := by
  cases h : mgr.shouldUseRedis with
  | false =>
    rw [getCall, readThrough_memory h]
    exact ⟨not_false, fun found hfound => hfound h rfl⟩
  | true =>
    rw [getCall, readThrough, redisConn, h]
    refine ⟨not_false, fun conn (hconn : conn = true) => ?_⟩
    subst hconn
    refine ⟨not_false, fun found hfound => ?_⟩
    obtain ⟨call, rfl⟩ := hfound h rfl
    exact ⟨not_writes_upsertLocal h, fun _ _ => ⟨call, rfl⟩⟩

theorem persistCall_once {call : CallState} :
    (mgr.persistCall call).Once mgr.Writes (Answered mgr callId) := by
  cases h : mgr.shouldUseRedis with
  | false =>
    rw [persistCall, redisConn_memory h]
    exact .inl ⟨h, fun _ => trivial⟩
  | true =>
    rw [persistCall, redisConn, h]
    refine .inr ⟨not_writes_upsertLocal h, fun _ _ => .inr ⟨not_false, fun conn (hconn : conn = true) => ?_⟩⟩
    subst hconn
    refine .inl ⟨h, fun set => ?_⟩
    cases set with
    | false => exact trivial
    | true =>
      refine ⟨not_false, fun set _ => ?_⟩
      cases set with
      | false => exact trivial
      | true => exact ⟨not_false, fun _ _ => trivial⟩

theorem mutateCall_once {mutation : Mutation} :
    (mgr.mutateCall callId mutation).Once mgr.Writes (Answered mgr callId) := by
  refine getCall_answered.bind_once fun found hfound => ?_
  obtain ⟨call, rfl⟩ := hfound
  exact persistCall_once

theorem method_once {node : ℕ} {mutation : Mutation} :
    (mgr.method ⟨node, .mutateCall callId mutation⟩).Once mgr.Writes (Answered mgr callId) :=
  mutateCall_once.bind fun _ => trivial

theorem method_never {t : ℕ} {caller : Caller}
    (h : mgr.admits callId (.spawn t caller) = true)
    (hact : ∀ mutation, caller.act ≠ .mutateCall callId mutation) :
    (mgr.method caller).Never mgr.Writes := by
  obtain ⟨node, act⟩ := caller
  rw [admits, Bool.and_eq_true] at h
  obtain ⟨-, h⟩ := h
  cases act with
  | getCall c => exact getCall_never.bind fun _ _ => trivial
  | getCallByChannel channelId => exact getCallByChannel_never.bind fun _ _ => trivial
  | getAllCalls => exact getAllCalls_never.bind fun _ _ => trivial
  | mutateCall c mutation =>
    obtain rfl : c = callId := eq_of_beq h
    exact absurd rfl (hact mutation)
  | addCall call => cases h
  | removeCall c => cases h
  | scheduleTimeout kind c => cases h

/-! ### What is stored -/

theorem stored_write_of_state {o : Outcome} {f : RedisCalls → RedisCalls}
    (h : mgr.shouldUseRedis = true → ∀ r, (f r).state = r.state) :
    mgr.stored callId (o.write f w) = mgr.stored callId w := by
  unfold stored
  rw [Outcome.nodes_write]
  split
  · next hredis =>
    rcases Outcome.redis_write (o := o) (f := f) (w := w) with hw | hw
    · rw [hw]
    · rw [hw, h hredis]
  · rfl

theorem stored_perform {n : ℕ} {o : Outcome} (h : ¬ mgr.Writes act) :
    mgr.stored callId (act.perform n o w).2 = mgr.stored callId w := by
  cases act with
  | setState call => exact stored_write_of_state fun hredis => absurd hredis h
  | delState c => exact stored_write_of_state fun hredis => absurd hredis h
  | setChannel channelId c => exact stored_write_of_state fun _ _ => rfl
  | addActive c => exact stored_write_of_state fun _ _ => rfl
  | delChannel channelId => exact stored_write_of_state fun _ _ => rfl
  | remActive c => exact stored_write_of_state fun _ _ => rfl
  | upsertLocal call =>
    rw [Writes, Bool.not_eq_false] at h
    unfold stored
    rw [h]
    rfl
  | removeLocal c =>
    rw [Writes, Bool.not_eq_false] at h
    unfold stored
    rw [h]
    rfl
  | _ => rfl

theorem callId_of_stored {call : CallState} (h : mgr.stored callId w = some call) : call.callId = callId := by
  unfold stored at h
  split at h
  · exact w.redis.keyed callId call h
  · exact (w.nodes 0).callId_of_lookup h

theorem stored_write {n : ℕ} {call : CallState} (hn : mgr.shouldUseRedis = true ∨ n = 0) (hw : mgr.Writes act)
    (hcall : act.written = some call) (hid : call.callId = callId) :
    mgr.stored callId (act.perform n .ok w).2 = some call := by
  subst hid
  cases act with
  | setState c =>
    obtain rfl := Option.some.inj hcall
    have hredis : mgr.shouldUseRedis = true := hw
    rw [stored, hredis]
    exact Assoc.lookup_insert_self
  | upsertLocal c =>
    obtain rfl := Option.some.inj hcall
    have hmemory : mgr.shouldUseRedis = false := hw
    rw [hmemory] at hn
    obtain rfl := hn.resolve_left Bool.noConfusion
    rw [stored, hmemory]
    show (Function.update w.nodes 0 ((w.nodes 0).upsertCallLocal c) 0).lookup c.callId = some c
    rw [Function.update_self, CallManager.lookup_upsert, if_pos rfl]
  | _ => cases hcall

theorem answered_perform {n : ℕ} (hn : mgr.shouldUseRedis = true ∨ n = 0) {call : CallState}
    (h : mgr.stored callId w = some call) : Answered mgr callId act (act.perform n .ok w).1 := by
  unfold stored at h
  cases act with
  | redisConn => exact rfl
  | getState c =>
    rintro hredis rfl
    rw [hredis] at h
    exact ⟨call, congrArg some h⟩
  | readLocal c =>
    rintro hmemory rfl
    rw [hmemory] at hn h
    obtain rfl := hn.resolve_left Bool.noConfusion
    exact ⟨call, h⟩
  | _ => trivial

/-! ### The order of the writes -/

/-- The changes in `order` have been written in this order, and the others are still to be written. -/
structure Committed (mgr : CallStateManager) (callId : Uuid) (call₀ : CallState) (order : List (ℕ × Mutation))
    (s : Methods) : Prop where
  nodup : (order.map Prod.fst).Nodup
  mem : ∀ t mutation, (t, mutation) ∈ order →
    ∃ node prog, s.tasks.lookup t = some ⟨⟨node, .mutateCall callId mutation⟩, prog⟩
  stored : mgr.stored callId s.shared = some (order.foldl (fun call change => change.2.apply call) call₀)
  node : ∀ t task, s.tasks.lookup t = some task → mgr.shouldUseRedis = true ∨ task.label.node = 0
  task : ∀ t task, s.tasks.lookup t = some task →
    (task.prog.Never mgr.Writes ∧ ∀ mutation, task.label.act = .mutateCall callId mutation → (t, mutation) ∈ order) ∨
    (task.prog.Once mgr.Writes (Answered mgr callId) ∧ t ∉ order.map Prod.fst ∧
      ∃ mutation, task.label.act = .mutateCall callId mutation)

namespace Committed

variable {call₀ : CallState} {order : List (ℕ × Mutation)} {s s' : Methods} {t : ℕ} {caller : Caller}

theorem spawn (h : Committed mgr callId call₀ order s) (hadmits : mgr.admits callId (.spawn t caller) = true)
    (hnew : s.tasks.lookup t = none) :
    Committed mgr callId call₀ order { s with tasks := s.tasks.insert t ⟨caller, mgr.method caller⟩ } where
  nodup := h.nodup
  mem t' mutation hmem := by
    obtain ⟨node, prog, hl⟩ := h.mem t' mutation hmem
    refine ⟨node, prog, ?_⟩
    rw [Assoc.lookup_insert_eq, if_neg, hl]
    rintro rfl
    rw [hnew] at hl
    cases hl
  stored := h.stored
  node t' task hl := by
    rcases Assoc.lookup_insert_cases hl with ⟨-, rfl⟩ | ⟨-, hl⟩
    · rw [admits, Bool.and_eq_true, Bool.or_eq_true] at hadmits
      exact hadmits.1.imp_right eq_of_beq
    · exact h.node t' task hl
  task t' task hl := by
    rcases Assoc.lookup_insert_cases hl with ⟨rfl, rfl⟩ | ⟨-, hl⟩
    · by_cases hact : ∃ mutation, caller.act = .mutateCall callId mutation
      · obtain ⟨mutation, hact⟩ := hact
        obtain ⟨node, act⟩ := caller
        obtain rfl : act = _ := hact
        refine .inr ⟨method_once, fun hmem => ?_, mutation, rfl⟩
        obtain ⟨⟨_, m⟩, hin, rfl⟩ := List.mem_map.1 hmem
        obtain ⟨_, _, hl⟩ := h.mem _ _ hin
        rw [hnew] at hl
        cases hl
      · exact .inl ⟨method_never hadmits fun mutation hm => hact ⟨mutation, hm⟩,
          fun mutation hm => absurd ⟨mutation, hm⟩ hact⟩
    · exact h.task t' task hl

theorem label_insert {prog : StoreProg (List CallState)} {task task' : Pool.Task Caller StoreAct StoreAct.Res (List CallState)}
    {t' : ℕ} (hl : s.tasks.lookup t = some task)
    (hl' : (s.tasks.insert t ⟨task.label, prog⟩).lookup t' = some task') :
    ∃ old, s.tasks.lookup t' = some old ∧ old.label = task'.label := by
  rcases Assoc.lookup_insert_cases hl' with ⟨rfl, rfl⟩ | ⟨-, hl'⟩
  · exact ⟨task, hl, rfl⟩
  · exact ⟨task', hl', rfl⟩

theorem mem_insert {prog : StoreProg (List CallState)} {task : Pool.Task Caller StoreAct StoreAct.Res (List CallState)}
    (hl : s.tasks.lookup t = some task) {t' : ℕ} {mutation : Mutation}
    (h : ∃ node prog, s.tasks.lookup t' = some ⟨⟨node, .mutateCall callId mutation⟩, prog⟩) :
    ∃ node prog', (s.tasks.insert t ⟨task.label, prog⟩).lookup t' = some ⟨⟨node, .mutateCall callId mutation⟩, prog'⟩ := by
  obtain ⟨node, prog', hl'⟩ := h
  rw [Assoc.lookup_insert_eq]
  split
  · next ht =>
    subst ht
    rw [hl] at hl'
    obtain rfl := Option.some.inj hl'
    exact ⟨node, prog, rfl⟩
  · exact ⟨node, prog', hl'⟩

theorem perform {o : Outcome} {label : Caller} {next : act.Res → StoreProg (List CallState)}
    (h : Committed mgr callId call₀ order s) (hp : s.Performs t label act next)
    (hord : mgr.Orderly callId s (.step t o)) : ∃ order', Committed mgr callId call₀ order'
      ⟨(act.perform label.node o s.shared).2,
        s.tasks.insert t ⟨label, next (act.perform label.node o s.shared).1⟩⟩ := by
  have hnode : ∀ t' task, (s.tasks.insert t ⟨label, next (act.perform label.node o s.shared).1⟩).lookup t' = some task →
      mgr.shouldUseRedis = true ∨ task.label.node = 0 := by
    intro t' task hl
    obtain ⟨old, hold, hlabel⟩ := label_insert hp hl
    exact hlabel ▸ h.node t' old hold
  rcases h.task t _ hp with ⟨hnever, hin⟩ | ⟨honce, hnot, mutation, hact⟩
  · -- the task has written already, or only reads
    refine ⟨order, h.nodup, fun t' m hm => mem_insert hp (h.mem t' m hm), ?_, hnode, fun t' task hl => ?_⟩
    · rw [stored_perform hnever.1, h.stored]
    · rcases Assoc.lookup_insert_cases hl with ⟨rfl, rfl⟩ | ⟨-, hl⟩
      · exact .inl ⟨hnever.2 _ trivial, hin⟩
      · exact h.task t' task hl
  · obtain ⟨node, labelAct⟩ := label
    obtain rfl : labelAct = _ := hact
    obtain ⟨rfl, hwritten⟩ := hord node mutation act next hp
    have hn := h.node t _ hp
    rcases honce with ⟨hw, hnever⟩ | ⟨hw, honce⟩
    · refine ⟨order ++ [(t, mutation)], ?_, fun t' m hm => ?_, ?_, hnode, fun t' task hl => ?_⟩
      · rw [List.map_append, List.map_singleton]
        exact List.nodup_append'.2 ⟨h.nodup, List.nodup_singleton _, List.disjoint_singleton.2 hnot⟩
      · rcases List.mem_append.1 hm with hm | hm
        · exact mem_insert hp (h.mem t' m hm)
        · cases List.mem_singleton.1 hm
          exact mem_insert hp ⟨node, _, hp⟩
      · have hwritten' := hwritten hw
        rw [h.stored, Option.map_some] at hwritten'
        rw [List.foldl_append, List.foldl_cons, List.foldl_nil]
        refine stored_write hn hw hwritten' ?_
        rw [Mutation.apply_callId]
        exact callId_of_stored h.stored
      · rcases Assoc.lookup_insert_cases hl with ⟨rfl, rfl⟩ | ⟨hne, hl⟩
        · refine .inl ⟨hnever _, fun m hm => ?_⟩
          cases hm
          exact List.mem_append_right _ (List.mem_singleton_self _)
        · rcases h.task t' task hl with ⟨hnever', hin⟩ | ⟨honce', hnot', hact'⟩
          · exact .inl ⟨hnever', fun m hm => List.mem_append_left _ (hin m hm)⟩
          · refine .inr ⟨honce', ?_, hact'⟩
            rw [List.map_append, List.mem_append]
            exact not_or.2 ⟨hnot', fun hmem => hne (List.mem_singleton.1 hmem)⟩
    · refine ⟨order, h.nodup, fun t' m hm => mem_insert hp (h.mem t' m hm), ?_, hnode, fun t' task hl => ?_⟩
      · rw [stored_perform hw, h.stored]
      · rcases Assoc.lookup_insert_cases hl with ⟨rfl, rfl⟩ | ⟨-, hl⟩
        · exact .inr ⟨honce _ (answered_perform hn h.stored), hnot, mutation, rfl⟩
        · exact h.task t' task hl

theorem step {input : Pool.Input Caller Outcome} (h : Committed mgr callId call₀ order s)
    (hord : mgr.Orderly callId s input) (hs : mgr.changeStep callId s input = some s') :
    ∃ order', Committed mgr callId call₀ order' s' := by
  unfold changeStep at hs
  split at hs
  · next hadmits =>
    rcases Pool.step_cases hs with ⟨t, caller, rfl, hnew, rfl⟩ | ⟨t, o, label, act, next, rfl, hp, rfl⟩
    · exact ⟨order, h.spawn hadmits hnew⟩
    · exact h.perform hp hord
  · cases hs

theorem serial {w : World} {call₀ : CallState} (h : Committed mgr callId call₀ order s) (hq : s.Quiet)
    (h₀ : mgr.stored callId w = some call₀) : mgr.Serial callId (.start w) s := by
  refine ⟨order, h.nodup, fun t mutation => ⟨h.mem t mutation, ?_⟩, ?_⟩
  · rintro ⟨node, prog, hl⟩
    rcases h.task t _ hl with ⟨-, hin⟩ | ⟨honce, -, -⟩
    · exact hin mutation rfl
    · obtain ⟨calls, hdone⟩ := hq t _ hl
      rw [show prog = .done calls from hdone] at honce
      exact honce.elim
  · rw [h.stored]
    show _ = (mgr.stored callId w).map _
    rw [h₀]
    rfl

end Committed

/-- Where every change writes what it makes of the call as it is stored, the stored call is what the changes make one
after another, whenever nothing is under way. -/
theorem serial_of_orderly (mgr : CallStateManager) (callId : Uuid) (w : World)
    (hw : (mgr.stored callId w).isSome = true) (ops : List (Pool.Input Caller Outcome))
    (hord : Run.AllSteps (mgr.changeStep callId) (mgr.Orderly callId) (.start w) ops) :
    Run.AllStates (mgr.changeStep callId) (fun s => s.Quiet → mgr.Serial callId (.start w) s) (.start w) ops := by
  obtain ⟨call₀, h₀⟩ := Option.isSome_iff_exists.1 hw
  have hnone : ∀ t task, (Pool.start w : Methods).tasks.lookup t ≠ some task := by
    intro t task hl
    simp at hl
  have hstart : Committed mgr callId call₀ [] (.start w) :=
    ⟨List.nodup_nil, fun t m hm => (List.not_mem_nil hm).elim, h₀, fun t task hl => (hnone t task hl).elim,
      fun t task hl => (hnone t task hl).elim⟩
  have hinv : Run.AllStates (mgr.changeStep callId) (fun s => ∃ order, Committed mgr callId call₀ order s) (.start w) ops :=
    Run.allStates_of_allSteps (fun s input s' ⟨order, h⟩ hord hs => h.step hord hs) ⟨[], hstart⟩ hord
  exact hinv.mono fun s ⟨order, h⟩ hq => h.serial hq h₀

theorem orderly_of_lookup {s : Methods} {t : ℕ} {label : Caller} {next : act.Res → StoreProg (List CallState)}
    {mutation : Mutation} (hl : s.tasks.lookup t = some ⟨label, .perform act next⟩)
    (hact : label.act = .mutateCall callId mutation)
    (hw : mgr.Writes act → act.written = (mgr.stored callId s.shared).map mutation.apply) :
    mgr.Orderly callId s (.step t .ok) := by
  intro node mutation' act' next' hp
  rw [Pool.Performs, hl] at hp
  cases hp
  cases hact
  exact ⟨rfl, hw⟩

def inMemory : CallStateManager := ⟨false, .auto⟩

def callOfTwo : CallState where
  callId := 1
  channelId := 2
  ownerId := 3
  hostId := 3
  startedAt := 0
  participants := (Participants.empty.insert ⟨3, 5, 0, false, false, false⟩).insert ⟨4, 6, 0, false,
    false, false⟩
  screenSharer := none
  threadId := none
  dismissedUsers := ∅

/-- The call is on the one node. -/
def worldOfTwo : World := World.init.updateNode 0 (·.upsertCallLocal callOfTwo)

/-- The first change is complete before the second reads the call. -/
def muteThenRaise : List (Pool.Input Caller Outcome) :=
  [.spawn 0 ⟨0, .mutateCall 1 (.setMuted 3 true)⟩, .step 0 .ok, .step 0 .ok,
    .spawn 1 ⟨0, .mutateCall 1 (.setHandRaised 4 true)⟩, .step 1 .ok, .step 1 .ok]

theorem mute_then_raise :
    Run.AllStates (inMemory.changeStep 1) (fun s => s.Quiet → inMemory.Serial 1 (.start worldOfTwo) s)
      (.start worldOfTwo) muteThenRaise := by
  refine serial_of_orderly inMemory 1 worldOfTwo (by decide) muteThenRaise ?_
  refine Run.allSteps_cons.2 ⟨trivial, fun s hs => ?_⟩
  cases hs
  refine Run.allSteps_cons.2 ⟨orderly_of_lookup rfl rfl fun h => h.elim, fun s hs => ?_⟩
  cases hs
  refine Run.allSteps_cons.2 ⟨orderly_of_lookup rfl rfl fun _ => rfl, fun s hs => ?_⟩
  cases hs
  refine Run.allSteps_cons.2 ⟨trivial, fun s hs => ?_⟩
  cases hs
  refine Run.allSteps_cons.2 ⟨orderly_of_lookup rfl rfl fun h => h.elim, fun s hs => ?_⟩
  cases hs
  exact Run.allSteps_cons.2 ⟨orderly_of_lookup rfl rfl fun _ => rfl, fun _ _ => Run.allSteps_nil⟩

/-- The second change reads the call before the first has written it. -/
def muteWhileRaising : List (Pool.Input Caller Outcome) :=
  [.spawn 0 ⟨0, .mutateCall 1 (.setMuted 3 true)⟩, .spawn 1 ⟨0, .mutateCall 1 (.setHandRaised 4 true)⟩, .step 0 .ok,
    .step 1 .ok, .step 0 .ok, .step 1 .ok]

theorem mute_lost :
    ¬ Run.AllStates (inMemory.changeStep 1) (fun s => s.Quiet → inMemory.Serial 1 (.start worldOfTwo) s)
      (.start worldOfTwo) muteWhileRaising := by
  intro h
  obtain ⟨s, hexec, hquiet, hlost, hkeys, h0, h1⟩ : ∃ s,
      Run.exec (inMemory.changeStep 1) (.start worldOfTwo) muteWhileRaising = some s ∧ s.Quiet ∧
      (inMemory.stored 1 s.shared).map (fun call => (call.participants.lookup 3).map (·.muted)) = some (some false) ∧
      s.tasks.keys = [1, 0] ∧
      s.tasks.lookup 0 = some ⟨⟨0, .mutateCall 1 (.setMuted 3 true)⟩, .done []⟩ ∧
      s.tasks.lookup 1 = some ⟨⟨0, .mutateCall 1 (.setHandRaised 4 true)⟩, .done []⟩ :=
    ⟨_, rfl, Pool.quiet_of_all rfl, rfl, rfl, rfl, rfl⟩
  obtain ⟨order, hnodup, hmem, hstored⟩ := h.last hexec hquiet
  have hperm : order.Perm [(0, .setMuted 3 true), (1, .setHandRaised 4 true)] := by
    refine (List.perm_ext_iff_of_nodup hnodup.of_map (by simp)).2 fun ⟨t,
      mutation⟩ => (hmem t mutation).trans ⟨?_, ?_⟩
    · rintro ⟨node, prog, hl⟩
      have ht : t ∈ s.tasks.keys := AList.mem_keys.2 (AList.lookup_isSome.1 (by rw [hl]; rfl))
      simp only [hkeys, List.mem_cons, List.not_mem_nil, or_false] at ht
      rcases ht with rfl | rfl
      · rw [h1] at hl
        cases hl
        simp
      · rw [h0] at hl
        cases hl
        simp
    · intro hin
      simp only [List.mem_cons, Prod.mk.injEq, List.not_mem_nil, or_false] at hin
      rcases hin with ⟨rfl, rfl⟩ | ⟨rfl, rfl⟩
      · exact ⟨0, _, h0⟩
      · exact ⟨0, _, h1⟩
  -- in both orders the participant is muted in the end
  rw [hstored] at hlost
  rcases List.perm_pair.1 hperm with rfl | rfl
  · exact absurd hlost (by decide)
  · exact absurd hlost (by decide)

end CallStateManager

end Rustchat.Calls
