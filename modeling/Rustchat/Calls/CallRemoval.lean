import Rustchat.Calls.Manager

/-!
# Removed calls

`remove_call` takes a call out of the maps of its own node and out of Redis. The call stays away when nothing else has
kept a copy (`never_returned`): the maps of another node, which `get_call` falls back to when Redis has no such call
(`removed_elsewhere`), or a method under way that has read the call and is still to write it.
-/

namespace Rustchat.Calls

/-- None of these calls is the one with this id. -/
def Without (callId : Uuid) (calls : List CallState) : Prop := ∀ call ∈ calls, call.callId ≠ callId

/-- An access does not store the call. -/
def StoreAct.Spares (callId : Uuid) (act : StoreAct) : Prop := Without callId act.written.toList

def StoreAct.Misses (callId : Uuid) (act : StoreAct) (r : act.Res) : Prop := Without callId (act.found r)

structure World.Lacks (callId : Uuid) (w : World) : Prop where
  redis : w.redis.state.lookup callId = none
  nodes : ∀ n, (w.nodes n).lookup callId = none

namespace CallStateManager

/-- The call is not stored, and no method under way has a copy that it would store or return. -/
structure NoTrace (callId : Uuid) (s : Methods) : Prop where
  shared : s.shared.Lacks callId
  tasks : ∀ t task, s.tasks.lookup t = some task → task.prog.isDone = false →
    task.prog.Safe (StoreAct.Spares callId) (StoreAct.Misses callId) (Without callId)

/-- A `remove_call` of the call has completed. -/
def Removed (callId : Uuid) (s : Methods) : Prop :=
  ∃ t node calls, s.tasks.lookup t = some ⟨⟨node, .removeCall callId⟩, .done calls⟩

/-- No `add_call` of the call. -/
def AddsOthers (callId : Uuid) (ops : List (Pool.Input Caller Outcome)) : Prop :=
  ∀ t caller call, .spawn t caller ∈ ops → caller.act = .addCall call → call.callId ≠ callId

/-- If the call has been removed and is not added again, no method that returns from then on returns the call. -/
def RemovalHolds (mgr : CallStateManager) (callId : Uuid) (s : Methods) : Prop :=
  Removed callId s → ∀ ops s', AddsOthers callId ops → Run.exec mgr.step s ops = some s' →
    ∀ t calls, s.result t = none → s'.result t = some calls → Without callId calls

/-- The call is in the maps of no node, and not in Redis where it is used. -/
structure Deleted (mgr : CallStateManager) (callId : Uuid) (w : World) : Prop where
  nodes : ∀ n, (w.nodes n).lookup callId = none
  redis : mgr.shouldUseRedis = true → w.redis.state.lookup callId = none

end CallStateManager

variable {callId : Uuid} {calls : List CallState} {call : CallState} {w : World} {act : StoreAct}

theorem without_nil : Without callId [] := fun _ h => (List.not_mem_nil h).elim

theorem without_toList {found : Option CallState} :
    Without callId found.toList ↔ ∀ call, found = some call → call.callId ≠ callId := by
  simp [Without]

theorem RedisCalls.without_of_lookup {r : RedisCalls} {id : Uuid} (h : r.state.lookup callId = none)
    (hl : r.state.lookup id = some call) : call.callId ≠ callId := by
  rintro rfl
  have hid := r.keyed id call hl
  rw [hid, hl] at h
  cases h

theorem CallManager.without_of_lookup {m : CallManager} {id : Uuid} (h : m.lookup callId = none)
    (hl : m.lookup id = some call) : call.callId ≠ callId := by
  rintro rfl
  have hid := callId_of_lookup hl
  rw [hid, hl] at h
  cases h

namespace World.Lacks

theorem write {o : Outcome} {f : RedisCalls → RedisCalls} (h : w.Lacks callId)
    (hf : ∀ r : RedisCalls, r.state.lookup callId = none → (f r).state.lookup callId = none) :
    (o.write f w).Lacks callId := by
  refine ⟨?_, fun n => ?_⟩
  · rcases Outcome.redis_write (o := o) (f := f) (w := w) with hw | hw
    · rw [hw]
      exact h.redis
    · rw [hw]
      exact hf _ h.redis
  · rw [Outcome.nodes_write]
    exact h.nodes n

theorem updateNode {n : ℕ} {f : CallManager → CallManager} (h : w.Lacks callId)
    (hf : ∀ m : CallManager, m.lookup callId = none → (f m).lookup callId = none) :
    (w.updateNode n f).Lacks callId := by
  refine ⟨h.redis, fun n' => ?_⟩
  show (Function.update w.nodes n (f (w.nodes n)) n').lookup callId = none
  by_cases hn : n' = n
  · rw [hn, Function.update_self]
    exact hf _ (h.nodes n)
  · rw [Function.update_of_ne hn]
    exact h.nodes n'

theorem perform {n : ℕ} {o : Outcome} (hact : act.Spares callId) (h : w.Lacks callId) :
    act.Misses callId (act.perform n o w).1 ∧ (act.perform n o w).2.Lacks callId := by
  have hspares : ∀ call, act.written = some call → call.callId ≠ callId := without_toList.1 hact
  cases act with
  | redisConn => exact ⟨without_nil, h⟩
  | getState id =>
    refine ⟨without_toList.2 fun call hfound => ?_, h⟩
    have hjoin : (o.answer (w.redis.state.lookup id)).join = some call := hfound
    have hl : w.redis.state.lookup id = some call := by
      cases o <;> simp_all [Outcome.answer]
    exact RedisCalls.without_of_lookup h.redis hl
  | getChannel channelId => exact ⟨without_nil, h⟩
  | activeMembers => exact ⟨without_nil, h⟩
  | setState call =>
    refine ⟨without_nil, h.write fun r hr => ?_⟩
    have hne : callId ≠ call.callId := (hspares call rfl).symm
    exact Assoc.lookup_insert_eq.trans ((if_neg hne).trans hr)
  | setChannel channelId id => exact ⟨without_nil, h.write fun r hr => hr⟩
  | addActive id => exact ⟨without_nil, h.write fun r hr => hr⟩
  | delChannel channelId => exact ⟨without_nil, h.write fun r hr => hr⟩
  | delState id =>
    refine ⟨without_nil, h.write fun r hr => ?_⟩
    have hl : (r.state.erase id).lookup callId = if callId = id then none else r.state.lookup callId :=
      Assoc.lookup_erase_eq
    simpa [RedisCalls.delState, hr] using hl
  | remActive id => exact ⟨without_nil, h.write fun r hr => hr⟩
  | upsertLocal call =>
    refine ⟨without_nil, h.updateNode (f := (·.upsertCallLocal call)) fun m hm => ?_⟩
    have hne : callId ≠ call.callId := (hspares call rfl).symm
    simp [hne, hm]
  | removeLocal id =>
    refine ⟨without_toList.2 fun call hl => CallManager.without_of_lookup (h.nodes n) hl,
      h.updateNode (f := (·.removeCallLocal id)) fun m hm => ?_⟩
    simp [hm]
  | readLocal id => exact ⟨without_toList.2 fun call hl => CallManager.without_of_lookup (h.nodes n) hl, h⟩
  | readLocalByChannel channelId =>
    exact ⟨without_toList.2 fun call hl =>
      CallManager.without_of_lookup (h.nodes n) (CallManager.lookup_of_lookupByChannel hl), h⟩
  | readLocalValues =>
    exact ⟨fun call hmem => CallManager.without_of_lookup (h.nodes n) (CallManager.mem_values.1 hmem), h⟩
  | spawnTimeout kind id => exact ⟨without_nil, h⟩

end World.Lacks

namespace CallStateManager

variable {mgr : CallStateManager}

/-- The program neither stores nor returns the call, as long as it is not returned to it. -/
abbrev Clean {α : Type} (callId : Uuid) (post : α → Prop) (p : StoreProg α) : Prop :=
  p.Safe (StoreAct.Spares callId) (StoreAct.Misses callId) post

def Other (callId : Uuid) (found : Option CallState) : Prop := Without callId found.toList

theorem clean_call (act : StoreAct) (h : act.written = none) :
    Clean callId (act.Misses callId) (Prog.call act : StoreProg act.Res) := by
  refine Prog.safe_call ?_
  rw [StoreAct.Spares, h]
  exact without_nil

theorem clean_store (act : StoreAct) (h : act.written = some call) (hne : call.callId ≠ callId) :
    Clean callId (act.Misses callId) (Prog.call act : StoreProg act.Res) := by
  refine Prog.safe_call ?_
  rw [StoreAct.Spares, h]
  exact without_toList.2 fun c hc => Option.some.inj hc ▸ hne

theorem redisConn_clean : Clean callId (fun _ => True) mgr.redisConn := by
  unfold redisConn
  split
  · exact (clean_call _ rfl).mono fun _ _ => trivial
  · exact trivial

theorem redisSetCall_clean (h : call.callId ≠ callId) : Clean callId (fun _ => True) (redisSetCall call) := by
  refine (clean_store _ rfl h).bind fun set _ => ?_
  cases set with
  | false => exact trivial
  | true =>
    refine (clean_call (.setChannel call.channelId call.callId) rfl).bind fun set _ => ?_
    cases set with
    | false => exact trivial
    | true => exact (clean_call (.addActive call.callId) rfl).bind fun _ _ => trivial

theorem persistCall_clean (h : call.callId ≠ callId) :
    Clean callId (fun _ => True) (mgr.persistCall call) := by
  refine (clean_store (.upsertLocal call) rfl h).bind fun _ _ => redisConn_clean.bind fun conn _ => ?_
  cases conn with
  | false => exact trivial
  | true => exact redisSetCall_clean h

/-- What Redis may answer. -/
def Answer (callId : Uuid) (found : Option (Option CallState)) : Prop := Other callId found.join

theorem readThrough_clean {query : StoreProg (Option (Option CallState))} {fallback : StoreProg (Option CallState)}
    (hq : Clean callId (Answer callId) query) (hf : Clean callId (Other callId) fallback) :
    Clean callId (Other callId) (mgr.readThrough query fallback) := by
  have hor : ∀ found, Answer callId found → Clean callId (Other callId) (orLocal found fallback) := by
    rintro (_ | _ | call) hfound
    · exact hf
    · exact hf
    · have hne := without_toList.1 hfound call rfl
      exact (clean_store (.upsertLocal call) rfl hne).bind fun _ _ => hfound
  refine redisConn_clean.bind fun conn _ => ?_
  cases conn with
  | false => exact hor none without_nil
  | true => exact hq.bind hor

theorem getCall_clean {id : Uuid} : Clean callId (Other callId) (mgr.getCall id) :=
  readThrough_clean (clean_call _ rfl) (clean_call _ rfl)

theorem getCallByChannel_clean {channelId : Uuid} :
    Clean callId (Other callId) (mgr.getCallByChannel channelId) := by
  refine readThrough_clean ?_ (clean_call _ rfl)
  refine (clean_call (.getChannel channelId) rfl).bind fun found _ => ?_
  rcases found with _ | _ | id
  · exact without_nil
  · exact without_nil
  · exact clean_call (.getState id) rfl

def Answers (callId : Uuid) (found : Option (List CallState)) : Prop := Without callId (found.getD [])

theorem redisGetCalls_clean (ids : List Uuid) : Clean callId (Answers callId) (redisGetCalls ids) := by
  induction ids with
  | nil => exact without_nil
  | cons id ids ih =>
    refine (clean_call (.getState id) rfl).bind fun found hfound => ?_
    cases found with
    | none => exact without_nil
    | some found =>
      refine ih.bind fun calls hcalls => ?_
      cases calls with
      | none => exact without_nil
      | some calls =>
        intro call hmem
        rcases List.mem_append.1 hmem with hmem | hmem
        · exact hfound call hmem
        · exact hcalls call hmem

theorem redisGetAllCalls_clean : Clean callId (Answers callId) redisGetAllCalls := by
  refine (clean_call .activeMembers rfl).bind fun found _ => ?_
  cases found with
  | none => exact without_nil
  | some ids => exact redisGetCalls_clean ids

theorem upsertAll_clean (h : Without callId calls) : Clean callId (fun _ => True) (upsertAll calls) := by
  induction calls with
  | nil => exact trivial
  | cons call calls ih =>
    have hne := h call List.mem_cons_self
    have hrest := ih fun c hc => h c (List.mem_cons_of_mem _ hc)
    exact (clean_store (.upsertLocal call) rfl hne).bind fun _ _ => hrest

theorem getAllCalls_clean : Clean callId (Without callId) mgr.getAllCalls := by
  have hlast : ∀ found, Answers callId found →
      Clean callId (Without callId) (upsertAll (found.getD []) >>= fun _ => orLocalValues (found.getD [])) := by
    intro found hfound
    refine (upsertAll_clean hfound).bind fun _ _ => ?_
    cases h : found.getD [] with
    | nil => exact clean_call .readLocalValues rfl
    | cons call calls =>
      rw [Answers, h] at hfound
      exact hfound
  refine redisConn_clean.bind fun conn _ => ?_
  cases conn with
  | false => exact hlast none without_nil
  | true => exact redisGetAllCalls_clean.bind hlast

theorem removeCall_clean {id : Uuid} : Clean callId (fun _ => True) (mgr.removeCall id) := by
  have hdel : ∀ channelId, Clean callId (fun _ => True)
      (delChannelOf channelId >>= fun _ => Store.delState id >>= fun _ => Store.remActive id) := by
    intro channelId
    have hrest : Clean callId (fun _ => True) (Store.delState id >>= fun _ => Store.remActive id) :=
      (clean_call (.delState id) rfl).bind fun _ _ => (clean_call (.remActive id) rfl).mono fun _ _ => trivial
    cases channelId with
    | none => exact hrest
    | some channelId => exact (clean_call (.delChannel channelId) rfl).bind fun _ _ => hrest
  refine (clean_call (.removeLocal id) rfl).bind fun removed _ => redisConn_clean.bind fun conn _ => ?_
  cases conn with
  | false => exact trivial
  | true =>
    cases removed with
    | some call => exact hdel (some call.channelId)
    | none =>
      have hread : Clean callId (fun _ => True) (removedChannel id none) :=
        (clean_call (.getState id) rfl).bind fun _ _ => trivial
      exact hread.bind fun channelId _ => hdel channelId

theorem mutateCall_clean {id : Uuid} {mutation : Mutation} :
    Clean callId (fun _ => True) (mgr.mutateCall id mutation) := by
  refine getCall_clean.bind fun found hfound => ?_
  cases found with
  | none => exact trivial
  | some call =>
    have hne := without_toList.1 hfound call rfl
    exact persistCall_clean (by rwa [Mutation.apply_callId])

theorem method_clean {caller : Caller} (h : ∀ call, caller.act = .addCall call → call.callId ≠ callId) :
    Clean callId (Without callId) (mgr.method caller) := by
  obtain ⟨node, act⟩ := caller
  cases act with
  | getCall id => exact getCall_clean.bind fun _ hfound => hfound
  | getCallByChannel channelId => exact getCallByChannel_clean.bind fun _ hfound => hfound
  | getAllCalls => exact getAllCalls_clean.bind fun _ hcalls => hcalls
  | addCall call => exact (persistCall_clean (h call rfl)).bind fun _ _ => without_nil
  | removeCall id => exact removeCall_clean.bind fun _ _ => without_nil
  | mutateCall id mutation => exact mutateCall_clean.bind fun _ _ => without_nil
  | scheduleTimeout kind id => exact (clean_call (.spawnTimeout kind id) rfl).bind fun _ _ => without_nil

/-! ### After the removal -/

variable {s : Methods}

theorem NoTrace.removalHolds (h : NoTrace callId s) : mgr.RemovalHolds callId s := by
  rintro - ops s' hadds hexec t calls ht hresult
  let old : ℕ → Prop := fun t => ∃ calls, s.result t = some calls
  let Inv : Methods → Prop :=
    Pool.Guarded old (World.Lacks callId) (StoreAct.Spares callId) (StoreAct.Misses callId) (Without callId)
  have hstart : Inv s := by
    refine ⟨h.shared, fun t ht => ht, fun t task hold hl => ?_⟩
    cases hdone : task.prog.isDone with
    | false => exact h.tasks t task hl hdone
    | true =>
      obtain ⟨label, prog⟩ := task
      cases prog with
      | done calls => exact (hold ⟨calls, Pool.result_eq_some.2 ⟨label, hl⟩⟩).elim
      | perform act next => cases hdone
  have hadd : Run.AllSteps mgr.step (fun _ input => AddsOthers callId [input]) s ops := by
    rintro pre input suf rfl - - t caller call hmem hact
    have hin : .spawn t caller ∈ pre ++ input :: suf := by simp_all
    exact hadds t caller call hin hact
  have hstep : ∀ u input u', Inv u → AddsOthers callId [input] → mgr.step u input = some u' → Inv u' := by
    intro u input u' hu hinput hs
    refine Pool.guarded_step (fun label o act w hact hw => hw.perform hact) (fun t caller hspawn => ?_) hu hs
    refine method_clean fun call hact => hinput t caller call ?_ hact
    rw [hspawn]
    exact List.mem_singleton_self _
  refine ((Run.allStates_of_allSteps hstep hstart hadd).last hexec).result ?_ hresult
  rintro ⟨calls, hcalls⟩
  rw [ht] at hcalls
  cases hcalls

/-! ### Copies that are kept -/

theorem Removed.exec {ops : List (Pool.Input Caller Outcome)} {s' : Methods} (h : Removed callId s)
    (hexec : Run.exec mgr.step s ops = some s') : Removed callId s' := by
  obtain ⟨t, node, calls, hl⟩ := h
  exact ⟨t, node, calls, Pool.done_exec hl hexec⟩

theorem RemovalHolds.exec {ops : List (Pool.Input Caller Outcome)} {s' : Methods} (h : mgr.RemovalHolds callId s)
    (hremoved : Removed callId s) (hadds : AddsOthers callId ops)
    (hexec : Run.exec mgr.step s ops = some s') :
    mgr.RemovalHolds callId s' := by
  intro _ ops' s'' hadds' hexec' t calls ht hresult
  have hall : Run.exec mgr.step s (ops ++ ops') = some s'' := by
    rw [Run.exec_append, hexec, Option.bind_some, hexec']
  refine h hremoved (ops ++ ops') s'' (fun t caller call hmem hact => ?_) hall t calls ?_ hresult
  · rcases List.mem_append.1 hmem with hmem | hmem
    · exact hadds t caller call hmem hact
    · exact hadds' t caller call hmem hact
  · cases hr : s.result t with
    | none => rfl
    | some old =>
      obtain ⟨label, hl⟩ := Pool.result_eq_some.1 hr
      have hr' := Pool.result_eq_some.2 ⟨label, Pool.done_exec hl hexec⟩
      rw [ht] at hr'
      cases hr'

theorem addsOthers_steps {t n : ℕ} {o : Outcome} : AddsOthers callId (List.replicate n (.step t o)) := by
  intro t' caller call hmem
  cases List.eq_of_mem_replicate hmem

theorem eval_getCall_refused (n : ℕ) (w : World) :
    (mgr.method ⟨n, .getCall callId⟩).eval (StoreAct.perform n .refused) w =
      (((w.nodes n).lookup callId).toList, w) := by
  show (mgr.getCall callId >>= fun found => Prog.done found.toList).eval _ w = _
  rw [Prog.eval_bind]
  cases h : mgr.shouldUseRedis with
  | false =>
    rw [getCall, readThrough_memory h]
    rfl
  | true =>
    rw [getCall, readThrough, redisConn, h]
    rfl

theorem eval_getCall_ok (h : mgr.shouldUseRedis = true) (n : ℕ) (hl : w.redis.state.lookup callId = some call) :
    ((mgr.method ⟨n, .getCall callId⟩).eval (StoreAct.perform n .ok) w).1 = [call] := by
  show ((mgr.getCall callId >>= fun found => Prog.done found.toList).eval _ w).1 = _
  rw [Prog.eval_bind, getCall, readThrough, redisConn, h]
  show ((orLocal (some (w.redis.state.lookup callId)) (Store.readLocal callId)).eval (StoreAct.perform n .ok) w).1.toList =
    [call]
  rw [hl]
  rfl

theorem RemovalHolds.alone (h : mgr.RemovalHolds callId s) (hremoved : Removed callId s) (caller : Caller)
    (hcaller : ∀ call, caller.act = .addCall call → call.callId ≠ callId) (o : Outcome) :
    Without callId ((mgr.method caller).eval (StoreAct.perform caller.node o) s.shared).1 := by
  obtain ⟨t, ht⟩ := Assoc.exists_lookup_none s.tasks
  obtain ⟨n, s', hexec, -, hresult, -⟩ : ∃ n s', Run.exec mgr.step s (.spawn t caller :: List.replicate n (.step t o)) = some s' ∧ _ :=
    Pool.exists_alone caller o ht
  refine h hremoved _ s' (fun t' caller' call hmem hact => ?_) hexec t _ ?_ hresult
  · rcases List.mem_cons.1 hmem with heq | hmem
    · cases heq
      exact hcaller call hact
    · exact addsOthers_steps t' caller' call hmem hact
  · unfold Pool.result
    rw [ht]

theorem RemovalHolds.deleted (h : mgr.RemovalHolds callId s) (hremoved : Removed callId s) :
    mgr.Deleted callId s.shared := by
  refine ⟨fun n => ?_, fun hredis => ?_⟩
  · have hlocal := h.alone hremoved ⟨n, .getCall callId⟩ (fun _ hact => by cases hact) .refused
    rw [eval_getCall_refused] at hlocal
    cases hl : (s.shared.nodes n).lookup callId with
    | none => rfl
    | some call => exact absurd (CallManager.callId_of_lookup hl) (without_toList.1 hlocal call hl)
  · have hread := h.alone hremoved ⟨0, .getCall callId⟩ (fun _ hact => by cases hact) .ok
    cases hl : s.shared.redis.state.lookup callId with
    | none => rfl
    | some call =>
      rw [eval_getCall_ok hredis 0 hl] at hread
      exact absurd (s.shared.redis.keyed callId call hl) (hread call (List.mem_singleton_self call))

/-- A method under way that is not interrupted any more does not return the call or store it again. -/
theorem RemovalHolds.finish (h : mgr.RemovalHolds callId s) (hremoved : Removed callId s) {t : ℕ}
    {task : Pool.Task Caller StoreAct StoreAct.Res (List CallState)} (hl : s.tasks.lookup t = some task)
    (hdone : task.prog.isDone = false) (o : Outcome) :
    Without callId (task.prog.eval (StoreAct.perform task.label.node o) s.shared).1 ∧
      mgr.Deleted callId (task.prog.eval (StoreAct.perform task.label.node o) s.shared).2 := by
  obtain ⟨n, s', hexec, hshared, hresult, -⟩ : ∃ n s', Run.exec mgr.step s (List.replicate n (.step t o)) = some s' ∧ _ :=
    Pool.exists_finish o hl
  constructor
  · refine h hremoved _ s' addsOthers_steps hexec t _ ?_ hresult
    unfold Pool.result
    rw [hl]
    obtain ⟨label, prog⟩ := task
    cases prog with
    | done calls => cases hdone
    | perform act next => rfl
  · rw [← hshared]
    exact (h.exec hremoved addsOthers_steps hexec).deleted (hremoved.exec hexec)

/-- A removed call stays away where no copy is left of it. Where it stays away, it is deleted everywhere, and no
method under way that goes on alone returns it or stores it again. -/
theorem removal_holds (mgr : CallStateManager) (callId : Uuid) (s : Methods) :
    (NoTrace callId s → mgr.RemovalHolds callId s) ∧
      (Removed callId s → mgr.RemovalHolds callId s → mgr.Deleted callId s.shared ∧
        ∀ t task o, s.tasks.lookup t = some task → task.prog.isDone = false →
          Without callId (task.prog.eval (StoreAct.perform task.label.node o) s.shared).1 ∧
            mgr.Deleted callId (task.prog.eval (StoreAct.perform task.label.node o) s.shared).2) :=
  ⟨fun h => h.removalHolds, fun hremoved h => ⟨h.deleted hremoved, fun _ _ o hl hdone => h.finish hremoved hl hdone o⟩⟩

def overRedis : CallStateManager := ⟨true, .auto⟩

def someCall : CallState := ⟨1, 2, 3, 3, 0, .empty, none, none, ∅⟩

/-- A call is added on node 0, read on node 1 and removed on node 0. -/
def addReadRemove : List (Pool.Input Caller Outcome) :=
  .spawn 0 ⟨0, .addCall someCall⟩ :: List.replicate 5 (.step 0 .ok) ++
    (.spawn 1 ⟨1, .getCall 1⟩ :: List.replicate 3 (.step 1 .ok)) ++
      .spawn 2 ⟨0, .removeCall 1⟩ :: List.replicate 5 (.step 2 .ok)

theorem removed_elsewhere : ∃ s, Run.exec overRedis.step (.start .init) addReadRemove = some s ∧ Removed 1 s ∧
    ¬ overRedis.RemovalHolds 1 s := by
  refine ⟨_, rfl, ⟨2, 0, [], rfl⟩, fun h => ?_⟩
  have hdeleted := h.deleted ⟨2, 0, [], rfl⟩
  exact absurd (hdeleted.nodes 1) (by decide)

end CallStateManager

end Rustchat.Calls
