import Rustchat.Lib.Prog
import Rustchat.MmId

/-!
# The SFUs of calls (`calls_plugin/sfu/manager.rs`)

`get_or_create_sfu` looks its call up, makes an SFU if there is none and stores it, each under its own lock. Two
requests that both find none make two, and the second is stored over the first. Requests get the one SFU that is
stored exactly when none is ever stored over another (`SfuManager.oneSfu_iff_first`, `SfuManager.made_twice`).
`get_or_create_shared_udp_mux` looks again once it has the lock.
-/

namespace Rustchat.Calls

/-- An `Arc<SFU>`; `address` tells instances apart. -/
structure Sfu where
  address : ℕ
  callId : Uuid
  udpMux : Option ℕ
deriving DecidableEq

structure SfuManager where
  sfus : Assoc Uuid Sfu
  sharedUdpMux : Option ℕ
  -- addresses below have been given to SFUs and muxes
  made : ℕ

inductive SfuAct
  | readSfu (callId : Uuid)
  | readMux
  -- under the write lock: look again, bind a socket, store
  | writeMux
  -- `SFU::new`
  | newSfu (callId : Uuid) (sharedUdpMux : Option ℕ)
  | insertSfu (callId : Uuid) (sfu : Sfu)

def SfuAct.Res : SfuAct → Type
  | readSfu _ => Option Sfu
  | readMux => Option ℕ
  | writeMux => Option ℕ
  | newSfu _ _ => Except String Sfu
  | insertSfu _ _ => Unit

namespace SfuManager

def empty : SfuManager := ⟨∅, none, 0⟩

/-- An access; `o` says whether the socket can be bound and the SFU be made. -/
def perform (o : Except String Unit) : (act : SfuAct) → SfuManager → act.Res × SfuManager
  | .readSfu callId, s => (s.sfus.lookup callId, s)
  | .readMux, s => (s.sharedUdpMux, s)
  | .writeMux, s =>
    match s.sharedUdpMux, o with
    | some mux, _ => (some mux, s)
    | none, .ok () => (some s.made, { s with sharedUdpMux := some s.made, made := s.made + 1 })
    | none, .error _ => (none, s)
  | .newSfu callId sharedUdpMux, s => (o.map fun () => ⟨s.made, callId, sharedUdpMux⟩, { s with made := s.made + 1 })
  | .insertSfu callId sfu, s => ((), { s with sfus := s.sfus.insert callId sfu })

abbrev SfuProg := Prog SfuAct SfuAct.Res

section Methods

variable (udpPort : ℕ)

def getOrCreateSharedUdpMux : SfuProg (Option ℕ) :=
  if udpPort = 0 then pure none
  else do
    match ← Prog.call SfuAct.readMux with
    | some (mux : ℕ) => pure (some mux)
    | none => Prog.call SfuAct.writeMux

def storeSfu (callId : Uuid) : Except String Sfu → SfuProg (Except String Sfu)
  | .error e => pure (.error e)
  | .ok sfu => do
    Prog.call (SfuAct.insertSfu callId sfu)
    pure (.ok sfu)

/-- What `get_or_create_sfu` does for a call without SFU. -/
def createSfu (callId : Uuid) : SfuProg (Except String Sfu) := do
  let sharedUdpMux ← getOrCreateSharedUdpMux udpPort
  let sfu ← Prog.call (SfuAct.newSfu callId sharedUdpMux)
  storeSfu callId sfu

def sfuOrNew (callId : Uuid) : Option Sfu → SfuProg (Except String Sfu)
  | some sfu => pure (.ok sfu)
  | none => createSfu udpPort callId

def getOrCreateSfu (callId : Uuid) : SfuProg (Except String Sfu) := do
  let found ← Prog.call (SfuAct.readSfu callId)
  sfuOrNew udpPort callId found

/-- Requests under way, by the calls whose SFU they want. -/
abbrev Requests := Pool SfuManager Uuid SfuAct SfuAct.Res (Except String Sfu)

abbrev step : Requests → Pool.Input Uuid (Except String Unit) → Option Requests :=
  Pool.step (getOrCreateSfu udpPort) fun _ => perform

end Methods

def Returned (pool : Requests) (t : ℕ) (callId : Uuid) (sfu : Sfu) : Prop :=
  pool.tasks.lookup t = some ⟨callId, .done (.ok sfu)⟩

/-- All requests for a call return the same SFU, the one that is stored. -/
structure OneSfu (pool : Requests) : Prop where
  same : ∀ t t' callId sfu sfu', Returned pool t callId sfu → Returned pool t' callId sfu' → sfu = sfu'
  stored : ∀ t callId sfu, Returned pool t callId sfu → pool.shared.sfus.lookup callId = some sfu

/-- An SFU is stored only where no other SFU of the call is. -/
def First (pool : Requests) : Pool.Input Uuid (Except String Unit) → Prop
  | .spawn _ _ => True
  | .step t _ => ∀ label callId sfu next, pool.Performs t label (.insertSfu callId sfu) next →
    ∀ other, pool.shared.sfus.lookup callId = some other → other = sfu

variable {udpPort : ℕ} {s : SfuManager} {pool pool' : Requests} {callId : Uuid} {sfu : Sfu}

theorem oneSfu_iff : OneSfu pool ↔
    ∀ t callId sfu, Returned pool t callId sfu → pool.shared.sfus.lookup callId = some sfu := by
  refine ⟨fun h => h.stored, fun h => ⟨fun t t' callId sfu sfu' hr hr' => ?_, h⟩⟩
  have hsfu := h t callId sfu hr
  have hsfu' := h t' callId sfu' hr'
  exact Option.some.inj (hsfu.symm.trans hsfu')

/-! ### Where a request can be -/

/-- On its way to an error, or to a new SFU that it stores and returns. -/
def Creates (callId : Uuid) : SfuProg (Except String Sfu) → Prop
  | .done r => ∀ sfu, r ≠ .ok sfu
  | .perform (.readSfu _) _ => False
  | .perform (.insertSfu id sfu) next => id = callId ∧ next () = .done (.ok sfu)
  | .perform .readMux next => ∀ r, Creates callId (next r)
  | .perform .writeMux next => ∀ r, Creates callId (next r)
  | .perform (.newSfu _ _) next => ∀ r, Creates callId (next r)

theorem creates_storeSfu : ∀ r, Creates callId (storeSfu callId r)
  | .error _ => fun _ h => by cases h
  | .ok _ => ⟨rfl, rfl⟩

theorem creates_createSfu : Creates callId (createSfu udpPort callId) := by
  unfold createSfu getOrCreateSharedUdpMux
  split
  · exact creates_storeSfu
  · intro mux
    cases mux with
    | some mux => exact creates_storeSfu
    | none => exact fun _ => creates_storeSfu

/-- Every request is at its start, makes an SFU for a call that had none from the start `s`, or is done. -/
structure Placed (udpPort : ℕ) (s : SfuManager) (pool : Requests) : Prop where
  tasks : ∀ t callId prog, pool.tasks.lookup t = some ⟨callId, prog⟩ →
    prog = getOrCreateSfu udpPort callId ∨ (s.sfus.lookup callId = none ∧ Creates callId prog) ∨
      ∃ r, prog = .done r
  -- what is stored was there, or a request has returned it
  known : ∀ callId sfu, pool.shared.sfus.lookup callId = some sfu →
    s.sfus.lookup callId = some sfu ∨ ∃ t, Returned pool t callId sfu
  kept : ∀ callId, pool.shared.sfus.lookup callId = none → s.sfus.lookup callId = none

def StoresNothing (pool : Requests) (t : ℕ) : Prop :=
  ∀ label callId sfu next, ¬ pool.Performs t label (.insertSfu callId sfu) next

theorem sfus_perform {o : Except String Unit} {act : SfuAct} (h : ∀ callId sfu, act ≠ .insertSfu callId sfu) :
    (perform o act s).2.sfus = s.sfus := by
  cases act with
  | insertSfu callId sfu => exact absurd rfl (h callId sfu)
  | writeMux =>
    rcases s with ⟨sfus, _ | mux, made⟩
    · cases o <;> rfl
    · rfl
  | _ => rfl

/-- What the steps of a request do: find an SFU, go on to make one, or store it. -/
inductive Step (s : SfuManager) (pool : Requests) (t : ℕ) (callId : Uuid) (pool' : Requests) : Prop
  | found (sfu : Sfu) (hfound : pool.shared.sfus.lookup callId = some sfu) (hnext : StoresNothing pool t)
    (hsfus : pool'.shared.sfus = pool.shared.sfus)
    (htasks : pool'.tasks = pool.tasks.insert t ⟨callId, .done (.ok sfu)⟩)
  | goesOn (prog : SfuProg (Except String Sfu)) (hnone : s.sfus.lookup callId = none) (hprog : Creates callId prog)
    (hnext : StoresNothing pool t) (hsfus : pool'.shared.sfus = pool.shared.sfus)
    (htasks : pool'.tasks = pool.tasks.insert t ⟨callId, prog⟩)
  | stores (sfu : Sfu) (next : Unit → SfuProg (Except String Sfu)) (hnone : s.sfus.lookup callId = none)
    (hnext : pool.Performs t callId (.insertSfu callId sfu) next)
    (hsfus : pool'.shared.sfus = pool.shared.sfus.insert callId sfu)
    (htasks : pool'.tasks = pool.tasks.insert t ⟨callId, .done (.ok sfu)⟩)

theorem storesNothing_of {t : ℕ} {act : SfuAct} {next : act.Res → SfuProg (Except String Sfu)}
    (hp : pool.Performs t callId act next) (h : ∀ callId sfu, act ≠ .insertSfu callId sfu) :
    StoresNothing pool t := by
  intro label id sfu next' hp'
  cases hp.symm.trans hp'
  exact h id sfu rfl

theorem step_of_performs {t : ℕ} {o : Except String Unit} {act : SfuAct} {next : act.Res → SfuProg (Except String Sfu)}
    (h : Placed udpPort s pool) (hp : pool.Performs t callId act next) :
    Step s pool t callId ⟨(perform o act pool.shared).2,
      pool.tasks.insert t ⟨callId, next (perform o act pool.shared).1⟩⟩ := by
  rcases h.tasks t callId _ hp with hstart | ⟨hnone, hcreates⟩ | ⟨r, hr⟩
  · -- the first access is the lookup
    have hread : getOrCreateSfu udpPort callId = .perform (.readSfu callId) (sfuOrNew udpPort callId) := rfl
    cases hstart.trans hread
    have hnothing := storesNothing_of hp (by simp)
    cases hfound : pool.shared.sfus.lookup callId with
    | some sfu => exact .found sfu hfound hnothing rfl (by simp only [perform, hfound, sfuOrNew, Prog.pure_eq])
    | none =>
      have hprog : Creates callId (createSfu udpPort callId) := creates_createSfu
      exact .goesOn _ (h.kept callId hfound) hprog hnothing rfl (by simp only [perform, hfound, sfuOrNew])
  · cases act with
    | readSfu id => exact hcreates.elim
    | insertSfu id sfu =>
      obtain ⟨rfl, hdone⟩ := hcreates
      exact .stores sfu next hnone hp rfl (by rw [← hdone]; rfl)
    | readMux => exact .goesOn _ hnone (hcreates _) (storesNothing_of hp (by simp)) rfl rfl
    | writeMux => exact .goesOn _ hnone (hcreates _) (storesNothing_of hp (by simp)) (sfus_perform (by simp)) rfl
    | newSfu id mux => exact .goesOn _ hnone (hcreates _) (storesNothing_of hp (by simp)) rfl rfl
  · cases hr

theorem step_cases {input : Pool.Input Uuid (Except String Unit)} (h : Placed udpPort s pool)
    (hs : step udpPort pool input = some pool') :
    (∃ t callId, input = .spawn t callId ∧ pool'.shared = pool.shared ∧
        pool'.tasks = pool.tasks.insert t ⟨callId, getOrCreateSfu udpPort callId⟩) ∨
      ∃ t o callId, input = .step t o ∧ Step s pool t callId pool' := by
  rcases Pool.step_cases hs with ⟨t, callId, rfl, -, rfl⟩ | ⟨t, o, callId, act, next, rfl, hp, rfl⟩
  · exact .inl ⟨t, callId, rfl, rfl, rfl⟩
  · exact .inr ⟨t, o, callId, rfl, step_of_performs h hp⟩

theorem placed_step {input : Pool.Input Uuid (Except String Unit)} (h : Placed udpPort s pool)
    (hs : step udpPort pool input = some pool') : Placed udpPort s pool' := by
  -- one task is somewhere else, and no request forgets what it returned
  have hplaced : ∀ t callId prog, pool'.tasks = pool.tasks.insert t ⟨callId, prog⟩ →
      (prog = getOrCreateSfu udpPort callId ∨ (s.sfus.lookup callId = none ∧ Creates callId prog) ∨ ∃ r, prog = .done r) →
      ∀ t' callId' prog', pool'.tasks.lookup t' = some ⟨callId', prog'⟩ →
        prog' = getOrCreateSfu udpPort callId' ∨ (s.sfus.lookup callId' = none ∧ Creates callId' prog') ∨
          ∃ r, prog' = .done r := by
    intro t callId prog htasks hprog t' callId' prog' hl
    rw [htasks] at hl
    rcases Assoc.lookup_insert_cases hl with ⟨-, heq⟩ | ⟨-, hl⟩
    · cases heq
      exact hprog
    · exact h.tasks t' callId' prog' hl
  have hknown : pool'.shared.sfus = pool.shared.sfus → ∀ callId sfu, pool'.shared.sfus.lookup callId = some sfu →
      s.sfus.lookup callId = some sfu ∨ ∃ t, Returned pool' t callId sfu := by
    intro hsfus callId sfu hl
    rw [hsfus] at hl
    rcases h.known callId sfu hl with hfirst | ⟨t, ht⟩
    · exact .inl hfirst
    · exact .inr ⟨t, Pool.done_step ht hs⟩
  rcases step_cases h hs with ⟨t, callId, -, hshared, htasks⟩ | ⟨t, o, callId, -, hstep⟩
  · have hsfus : pool'.shared.sfus = pool.shared.sfus := by rw [hshared]
    exact ⟨hplaced t callId _ htasks (.inl rfl), hknown hsfus, fun id hl => h.kept id (hsfus ▸ hl)⟩
  · cases hstep with
    | found sfu hfound hnext hsfus htasks =>
      exact ⟨hplaced t callId _ htasks (.inr (.inr ⟨_, rfl⟩)), hknown hsfus,
        fun id hl => h.kept id (hsfus ▸ hl)⟩
    | goesOn prog hnone hprog hnext hsfus htasks =>
      exact ⟨hplaced t callId _ htasks (.inr (.inl ⟨hnone, hprog⟩)), hknown hsfus,
        fun id hl => h.kept id (hsfus ▸ hl)⟩
    | stores sfu next hnone hnext hsfus htasks =>
      refine ⟨hplaced t callId _ htasks (.inr (.inr ⟨_, rfl⟩)), fun id sfu' hl => ?_, fun id hl => ?_⟩
      · rw [hsfus] at hl
        rcases Assoc.lookup_insert_cases hl with ⟨rfl, rfl⟩ | ⟨-, hl⟩
        · exact .inr ⟨t, by rw [Returned, htasks]; exact Assoc.lookup_insert_self⟩
        · rcases h.known id sfu' hl with hfirst | ⟨t', ht'⟩
          · exact .inl hfirst
          · exact .inr ⟨t', Pool.done_step ht' hs⟩
      · rw [hsfus, Assoc.lookup_insert_eq] at hl
        split at hl
        · cases hl
        · exact h.kept id hl

theorem oneSfu_step {input : Pool.Input Uuid (Except String Unit)} (h : Placed udpPort s pool) (hone : OneSfu pool)
    (hs : step udpPort pool input = some pool') : OneSfu pool' ↔ First pool input := by
  -- who has returned an SFU
  have hreturned : ∀ t callId prog, pool'.tasks = pool.tasks.insert t ⟨callId, prog⟩ → ∀ t' callId' sfu,
      Returned pool' t' callId' sfu → (callId' = callId ∧ prog = .done (.ok sfu)) ∨
        Returned pool t' callId' sfu := by
    intro t callId prog htasks t' callId' sfu hr
    rw [Returned, htasks] at hr
    rcases Assoc.lookup_insert_cases hr with ⟨-, heq⟩ | ⟨-, hr⟩
    · cases heq
      exact .inl ⟨rfl, rfl⟩
    · exact .inr hr
  rcases step_cases h hs with ⟨t, callId, rfl, hshared, htasks⟩ | ⟨t, o, callId, rfl, hstep⟩
  · refine iff_of_true (oneSfu_iff.2 fun t' callId' sfu hr => ?_) trivial
    rcases hreturned t callId _ htasks t' callId' sfu hr with ⟨-, hdone⟩ | hr
    · cases hdone
    · rw [hshared]
      exact hone.stored t' callId' sfu hr
  · cases hstep with
    | found sfu hfound hnext hsfus htasks =>
      refine iff_of_true (oneSfu_iff.2 fun t' callId' sfu' hr => ?_) fun label id sfu' next hp => (hnext _ _ _ _ hp).elim
      rw [hsfus]
      rcases hreturned t callId _ htasks t' callId' sfu' hr with ⟨rfl, hdone⟩ | hr
      · cases hdone
        exact hfound
      · exact hone.stored t' callId' sfu' hr
    | goesOn prog hnone hprog hnext hsfus htasks =>
      refine iff_of_true (oneSfu_iff.2 fun t' callId' sfu' hr => ?_) fun label id sfu' next hp => (hnext _ _ _ _ hp).elim
      rw [hsfus]
      rcases hreturned t callId _ htasks t' callId' sfu' hr with ⟨rfl, rfl⟩ | hr
      · exact (hprog sfu' rfl).elim
      · exact hone.stored t' callId' sfu' hr
    | stores sfu next hnone hnext hsfus htasks =>
      have hlookup : ∀ id, pool'.shared.sfus.lookup id = if id = callId then some sfu else pool.shared.sfus.lookup id := by
        intro id
        rw [hsfus]
        exact Assoc.lookup_insert_eq
      constructor
      · intro hone' label id sfu' next' hp other hother
        cases hnext.symm.trans hp
        rcases h.known callId other hother with hfirst | ⟨t', ht'⟩
        · rw [hnone] at hfirst
          cases hfirst
        · have hr : Returned pool' t callId sfu := by
            rw [Returned, htasks]
            exact Assoc.lookup_insert_self
          exact hone'.same t' t callId other sfu (Pool.done_step ht' hs) hr
      · intro hfirst
        refine oneSfu_iff.2 fun t' callId' sfu' hr => ?_
        rw [hlookup]
        rcases hreturned t callId _ htasks t' callId' sfu' hr with ⟨rfl, hdone⟩ | hr
        · cases hdone
          rw [if_pos rfl]
        · have hstored := hone.stored t' callId' sfu' hr
          split
          · next hid =>
            subst hid
            rw [hfirst callId' callId' sfu next hnext sfu' hstored]
          · exact hstored

/-- In every interleaving of requests, from any state of the manager and without removals, all requests for a call
return the one SFU that is stored if and only if no SFU is stored over another. -/
theorem oneSfu_iff_first (udpPort : ℕ) (s : SfuManager) (inputs : List (Pool.Input Uuid (Except String Unit)))
    (pool : Requests) (hrun : Run.exec (step udpPort) (Pool.start s) inputs = some pool) :
    Run.AllStates (step udpPort) OneSfu (Pool.start s) inputs ↔
      Run.AllSteps (step udpPort) First (Pool.start s) inputs := by
  have hnone : ∀ t task, (Pool.start s : Requests).tasks.lookup t = some task → False := by
    intro t task hl
    simp at hl
  have hplaced : Placed udpPort s (Pool.start s) :=
    ⟨fun t callId prog hl => (hnone t _ hl).elim, fun callId sfu hl => .inl hl, fun callId hl => hl⟩
  have hone : OneSfu (Pool.start s) := oneSfu_iff.2 fun t callId sfu hr => (hnone t _ hr).elim
  exact Run.allStates_iff_allSteps (I := Placed udpPort s) (fun _ _ _ hplaced hs => placed_step hplaced hs)
    (fun _ _ _ hplaced hone hs => oneSfu_step hplaced hone hs) hplaced hone hrun

/-- Two requests for call 7, and both find no SFU. -/
def makeTwice : List (Pool.Input Uuid (Except String Unit)) :=
  [.spawn 0 7, .spawn 1 7, .step 0 (.ok ()), .step 1 (.ok ()), .step 0 (.ok ()), .step 1 (.ok ()), .step 0 (.ok ()),
    .step 1 (.ok ())]

theorem makeTwice_run : ∃ pool, Run.exec (step 0) (Pool.start empty) makeTwice = some pool ∧
    (Run.AllStates (step 0) OneSfu (Pool.start empty) makeTwice ↔
      Run.AllSteps (step 0) First (Pool.start empty) makeTwice) :=
  ⟨_, rfl, oneSfu_iff_first 0 empty makeTwice _ rfl⟩

theorem made_twice : ¬ Run.AllStates (step 0) OneSfu (Pool.start empty) makeTwice := by
  intro h
  obtain ⟨pool, hexec, hr, hr'⟩ : ∃ pool, Run.exec (step 0) (Pool.start empty) makeTwice = some pool ∧
      Returned pool 0 7 ⟨0, 7, none⟩ ∧ Returned pool 1 7 ⟨1, 7, none⟩ :=
    ⟨_, rfl, rfl, rfl⟩
  have hsame := (h.last hexec).same 0 1 7 _ _ hr hr'
  exact absurd hsame (by decide)

end SfuManager

end Rustchat.Calls
