import Rustchat.Calls.Handlers

/-!
# One call per channel

`start_call`, the websocket join and `/call` ask whether the channel has a call and add one if not. Nothing keeps
another request out between the two, so a channel can get a second call, which takes over the index. It does not as
long as no node stores a call while it has another one of the channel (`ChannelCalls.indexed_iff_unclaimed`,
`ChannelCalls.started_twice`). A job that runs alone in memory does what its handler says of whole methods
(`CallStateManager.eval_serve_memory`).
-/

namespace Rustchat.Calls

structure Serving where
  node : ℕ
  job : Job

namespace CallStateManager

variable (mgr : CallStateManager)

def serve (serving : Serving) : StoreProg (Except AppError Reply) := serving.job.handler.run.expand mgr.impl

abbrev Servings := Pool World Serving StoreAct StoreAct.Res (Except AppError Reply)

abbrev serveStep : Servings → Pool.Input Serving Outcome → Option Servings :=
  Pool.step mgr.serve fun serving => StoreAct.perform serving.node

/-- A job that runs alone, on a node that keeps its calls in memory, does what its handler says of the methods. -/
theorem eval_serve_memory {mgr : CallStateManager} (h : mgr.shouldUseRedis = false) (serving : Serving) (o : Outcome)
    (w : World) : (mgr.serve serving).eval (StoreAct.perform serving.node o) w =
      ((serving.job.handler.run.eval ManagerAct.run (w.nodes serving.node)).1,
        w.updateNode serving.node fun _ => (serving.job.handler.run.eval ManagerAct.run (w.nodes serving.node)).2) := by
  rw [serve, Prog.eval_expand]
  induction serving.job.handler.run generalizing w with
  | done r =>
    have hsame : w.updateNode serving.node (fun _ => w.nodes serving.node) = w := by simp [World.updateNode]
    exact Prod.ext rfl hsame.symm
  | perform act next ih =>
    have hact := eval_impl_memory h serving.node o act w
    rw [Prog.eval, hact, ih]
    simp [World.updateNode, Prog.eval]

end CallStateManager

/-- Every channel has at most one call, and the index leads to it. -/
structure CallManager.Indexed (m : CallManager) : Prop where
  atMostOne : ∀ id id' call call', m.lookup id = some call → m.lookup id' = some call' →
    call.channelId = call'.channelId → id = id'
  index : ∀ id call, m.lookup id = some call → m.channelIndex.lookup call.channelId = some id

namespace ChannelCalls

open CallStateManager

/-- A call is stored in the maps of a node only if they have no other call of its channel. -/
def Unclaimed (pool : Servings) : Pool.Input Serving Outcome → Prop
  | .spawn _ _ => True
  | .step t _ => ∀ serving call next, pool.Performs t serving (.upsertLocal call) next →
    ∀ id other, (pool.shared.nodes serving.node).lookup id = some other → other.channelId = call.channelId →
      id = call.callId

variable {m : CallManager} {call : CallState} {callId : Uuid}

theorem indexed_iff : m.Indexed ↔
    ∀ id call, m.lookup id = some call → m.channelIndex.lookup call.channelId = some id := by
  refine ⟨fun h => h.index, fun h => ⟨fun id id' call call' hl hl' hchannel => ?_, h⟩⟩
  have hid := h id call hl
  have hid' := h id' call' hl'
  rw [hchannel, hid'] at hid
  exact (Option.some.inj hid).symm

theorem indexed_upsert (h : m.Indexed) : (m.upsertCallLocal call).Indexed ↔
    ∀ id other, m.lookup id = some other → other.channelId = call.channelId → id = call.callId := by
  have hindex : ∀ channelId, (m.upsertCallLocal call).channelIndex.lookup channelId =
      if channelId = call.channelId then some call.callId else m.channelIndex.lookup channelId :=
    fun _ => Assoc.lookup_insert_eq
  constructor
  · intro h' id other hl hchannel
    by_contra hid
    have hl' : (m.upsertCallLocal call).lookup id = some other :=
      by rw [CallManager.lookup_upsert, if_neg hid, hl]
    have hstored := h'.index id other hl'
    rw [hindex, if_pos hchannel] at hstored
    exact hid (Option.some.inj hstored).symm
  · intro hother
    refine indexed_iff.2 fun id c hl => ?_
    rw [CallManager.lookup_upsert] at hl
    rw [hindex]
    split at hl
    · next hid =>
      obtain rfl := Option.some.inj hl
      rw [if_pos rfl, hid]
    · next hid =>
      have hchannel : c.channelId ≠ call.channelId := fun heq => hid (hother id c hl heq)
      rw [if_neg hchannel]
      exact h.index id c hl

theorem indexed_remove (h : m.Indexed) : (m.removeCallLocal callId).Indexed := by
  refine indexed_iff.2 fun id c hl => ?_
  rw [CallManager.lookup_remove] at hl
  split at hl
  · cases hl
  · next hid =>
    have hindex := h.index id c hl
    unfold CallManager.removeCallLocal
    dsimp only
    split
    · next removed hremoved =>
      have hchannel : c.channelId ≠ removed.channelId :=
        fun heq => hid (h.atMostOne id callId c removed hl hremoved heq)
      rw [Assoc.lookup_erase_eq, if_neg hchannel]
      exact hindex
    · exact hindex

theorem indexed_perform {w : World} {n : ℕ} {o : Outcome} {act : StoreAct} (h : ∀ n, (w.nodes n).Indexed) :
    (∀ n', ((act.perform n o w).2.nodes n').Indexed) ↔ ∀ call, act = .upsertLocal call →
      ∀ id other, (w.nodes n).lookup id = some other → other.channelId = call.channelId → id = call.callId := by
  -- only the maps of node `n` change
  have hupdate : ∀ f : CallManager → CallManager,
      (∀ n', ((w.updateNode n f).nodes n').Indexed) ↔ (f (w.nodes n)).Indexed := by
    intro f
    constructor
    · intro h'
      have hn := h' n
      simpa [World.updateNode] using hn
    · intro hf n'
      by_cases hn : n' = n
      · subst hn
        simpa [World.updateNode] using hf
      · simpa [World.updateNode, hn] using h n'
  cases act with
  | upsertLocal call =>
    have hupsert := (hupdate (·.upsertCallLocal call)).trans (indexed_upsert (h n))
    refine hupsert.trans ⟨fun hother c hc => ?_, fun hother => hother call rfl⟩
    cases hc
    exact hother
  | removeLocal callId => exact iff_of_true ((hupdate (·.removeCallLocal callId)).2 (indexed_remove (h n))) (by simp)
  | _ =>
    refine iff_of_true (fun n' => ?_) (by simp)
    simp only [StoreAct.perform, Outcome.nodes_write]
    exact h n'

/-- In every run of jobs, interleaved at their accesses to maps and Redis, on any number of nodes: the channels of all
nodes have at most one call each, found through the index, if and only if calls are stored only where no other call of
the channel is. -/
theorem indexed_iff_unclaimed (mgr : CallStateManager) (inputs : List (Pool.Input Serving Outcome)) (pool : Servings)
    (hrun : Run.exec mgr.serveStep (Pool.start .init) inputs = some pool) :
    Run.AllStates mgr.serveStep (fun pool => ∀ n, (pool.shared.nodes n).Indexed) (Pool.start .init) inputs ↔
      Run.AllSteps mgr.serveStep Unclaimed (Pool.start .init) inputs := by
  refine Run.allStates_iff_allSteps (I := fun _ => True) (fun _ _ _ _ _ => trivial) ?_ trivial (fun n => ?_) hrun
  · rintro pool input pool' - hindexed hs
    rcases Pool.step_cases hs with ⟨t, serving, rfl, -, rfl⟩ | ⟨t, o, serving, act, next, rfl, hp, rfl⟩
    · exact iff_of_true hindexed trivial
    · refine (indexed_perform hindexed).trans ⟨fun h serving' call next' hp' => ?_, fun h call hact => ?_⟩
      · cases hp.symm.trans hp'
        exact h call rfl
      · subst hact
        exact h serving call next hp
  · refine indexed_iff.2 fun id call hl => ?_
    simp [Pool.start, World.init] at hl

def inMemoryOnly : CallStateManager := ⟨false, .memory⟩

/-- Two users start a call in channel 5, and both find that it has none. -/
def startTwice : List (Pool.Input Serving Outcome) :=
  [.spawn 0 ⟨0, .request (.plain 1 10 11) (.startCall 5)⟩, .spawn 1 ⟨0, .request (.plain 2 20 21) (.startCall 5)⟩,
    .step 0 .ok, .step 1 .ok, .step 0 .ok, .step 1 .ok]

theorem startTwice_run : ∃ pool, Run.exec inMemoryOnly.serveStep (Pool.start .init) startTwice = some pool ∧
    (Run.AllStates inMemoryOnly.serveStep (fun pool => ∀ n, (pool.shared.nodes n).Indexed) (Pool.start .init)
      startTwice ↔ Run.AllSteps inMemoryOnly.serveStep Unclaimed (Pool.start .init) startTwice) :=
  ⟨_, rfl, indexed_iff_unclaimed inMemoryOnly startTwice _ rfl⟩

theorem started_twice : ¬ Run.AllStates inMemoryOnly.serveStep (fun pool => ∀ n, (pool.shared.nodes n).Indexed)
    (Pool.start .init) startTwice := by
  intro h
  obtain ⟨pool, call, call', hexec, hl, hl', hchannel⟩ : ∃ pool call call',
      Run.exec inMemoryOnly.serveStep (Pool.start .init) startTwice = some pool ∧
        (pool.shared.nodes 0).lookup 10 = some call ∧ (pool.shared.nodes 0).lookup 20 = some call' ∧
          call.channelId = call'.channelId :=
    ⟨_, _, _, rfl, rfl, rfl, rfl⟩
  have hid := (h.last hexec 0).atMostOne 10 20 call call' hl hl' hchannel
  exact absurd hid (by decide)

end ChannelCalls

end Rustchat.Calls
