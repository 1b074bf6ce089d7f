import Rustchat.PresenceRegistry
import Rustchat.WireEvents
import Mathlib.Data.Finset.Card

/-!
# The limit of simultaneous connections (`api/websocket_core.rs`, `api/ws.rs`, `api/v4/websocket.rs`)

An attempt to connect reads the maximum, counts the connections in the presence registry and, if there are
fewer, goes on to register its own, several steps later. On the way it can still be given up: the v1 endpoint
checks before the upgrade and looks at the token after it, the v4 endpoint checks after the upgrade and
fetches the username after it. Attempts on all nodes share the registry, and nothing holds a place for one that
has passed its check. The number of registered connections stays within the maximum as long as no check
passes with all places held (`LimitState.within_of_roomy`).
-/

namespace Rustchat

/-- `get_max_simultaneous_connections`, from the value in the database if it could be read. -/
def maxSimultaneousConnections (value : Option String) : Nat :=
  match value.bind parseI64 with
  | some max => if 0 < max then max.toNat else 20
  | none => 20

/-- Where an attempt or the connection that has come of it is. -/
inductive AttemptPhase where
  -- `enforce_connection_limit`
  | readMax
  | counting (max : Nat) (task : RegistryTask)
  | admitted
  -- `register_presence_connection`
  | registering (task : RegistryTask)
  | connected

namespace AttemptPhase

def holds : AttemptPhase → Bool
  | .admitted | .registering _ | .connected => true
  | _ => false

def isOpen : AttemptPhase → Bool
  | .registering _ | .connected => true
  | _ => false

end AttemptPhase

/-- The attempts and connections of one user on all nodes, each under the id of its connection, and the other
tasks on the registry. -/
structure LimitState where
  registry : PresenceRegistry
  attempts : Assoc Uuid AttemptPhase
  tasks : Assoc Nat RegistryTask

inductive LimitOp where
  | attempt (connectionId : Uuid)
  -- whether the database answers, and whether the pool gives a connection to Redis
  | readMax (connectionId : Uuid) (answered connected : Bool)
  -- the next command of the count or of the registration
  | advance (connectionId : Uuid) (ok : Bool)
  | register (connectionId : Uuid) (connected : Bool)
  | finish (connectionId : Uuid) (task : Nat)
  -- an attempt that is given up, or a connection whose node is gone
  | drop (connectionId : Uuid)
  | heartbeat (task : Nat) (connectionId : Uuid)
  | count (task : Nat)
  | advanceTask (task : Nat) (ok : Bool)
  | pass (millis : Nat)

namespace LimitState

def init (registry : PresenceRegistry) : LimitState := ⟨registry, ∅, ∅⟩

def setPhase (s : LimitState) (connectionId : Uuid) (phase : AttemptPhase) : LimitState :=
  { s with attempts := s.attempts.insert connectionId phase }

def refuse (s : LimitState) (connectionId : Uuid) : LimitState :=
  { s with attempts := s.attempts.erase connectionId }

/-- One command of the count of `enforce_connection_limit`. -/
def advanceCount (s : LimitState) (connectionId : Uuid) (max : Nat) (t : RegistryTask) : LimitState :=
  let s' := { s with registry := (t.advance s.registry).1 }
  match (t.advance s.registry).2 with
  | some t' => s'.setPhase connectionId (.counting max t')
  | none => if max ≤ t.activeCount then s'.refuse connectionId else s'.setPhase connectionId .admitted

def startTask (s : LimitState) (task : Nat) (t : RegistryTask) : Option LimitState :=
  if (s.tasks.lookup task).isSome then none else some { s with tasks := s.tasks.insert task t }

def step (setting : Option String) (s : LimitState) : LimitOp → Option LimitState
  | .attempt connectionId =>
    if (s.attempts.lookup connectionId).isSome then none else some (s.setPhase connectionId .readMax)
  | .readMax connectionId answered connected =>
    match s.attempts.lookup connectionId with
    | some .readMax =>
      some (if connected then
        s.setPhase connectionId (.counting (maxSimultaneousConnections (if answered then setting else none)) .count)
      else s.refuse connectionId)
    | _ => none
  | .advance connectionId ok =>
    match s.attempts.lookup connectionId with
    | some (.counting max t) => some (if ok then s.advanceCount connectionId max t else s.refuse connectionId)
    | some (.registering t) =>
      let s' := { s with registry := (t.run s.registry ok).1 }
      some (s'.setPhase connectionId ((t.run s.registry ok).2.elim .connected .registering))
    | _ => none
  | .register connectionId connected =>
    match s.attempts.lookup connectionId with
    | some .admitted => some (s.setPhase connectionId (if connected then .registering (.register connectionId) else .connected))
    | _ => none
  | .finish connectionId task =>
    match s.attempts.lookup connectionId with
    | some .connected => (s.refuse connectionId).startTask task (.unregister connectionId)
    | _ => none
  | .drop connectionId => some (s.refuse connectionId)
  | .heartbeat task connectionId => s.startTask task (.heartbeat connectionId)
  | .count task => s.startTask task .count
  | .advanceTask task ok => (s.tasks.lookup task).map fun t =>
    { s with registry := (t.run s.registry ok).1, tasks := Assoc.replace task (t.run s.registry ok).2 s.tasks }
  | .pass millis => some { s with registry := s.registry.pass millis }

/-! ### Places -/

/-- The attempts past their check and the connections that have come of them. -/
def holders (s : LimitState) : Finset Uuid :=
  s.attempts.keys.toFinset.filter fun c => (s.attempts.lookup c).any AttemptPhase.holds

/-- The open connections that are in the set and have a heartbeat key. -/
def registeredLive (s : LimitState) : Finset Uuid :=
  s.attempts.keys.toFinset.filter fun c =>
    (s.attempts.lookup c).any AttemptPhase.isOpen ∧ c ∈ s.registry.connections ∧ s.registry.Alive c

def Within (setting : Option String) (s : LimitState) : Prop :=
  s.registeredLive.card ≤ maxSimultaneousConnections setting

instance (setting : Option String) (s : LimitState) : Decidable (s.Within setting) :=
  inferInstanceAs (Decidable (_ ≤ _))

def Passes (s : LimitState) (connectionId : Uuid) : Prop :=
  ∃ max t, s.attempts.lookup connectionId = some (.counting max t) ∧ (t.advance s.registry).2 = none ∧
    t.activeCount < max

/-- A check that passes leaves no more holders than places. -/
def Roomy (setting : Option String) (s : LimitState) : LimitOp → Prop
  | .advance connectionId true => s.Passes connectionId → s.holders.card < maxSimultaneousConnections setting
  | _ => True

variable {setting : Option String} {s s' : LimitState} {c d : Uuid} {phase : AttemptPhase} {op : LimitOp}

theorem mem_holders : c ∈ s.holders ↔ ∃ phase, s.attempts.lookup c = some phase ∧ phase.holds = true := by
  unfold holders
  rw [Finset.mem_filter, List.mem_toFinset, Option.any_eq_true]
  refine and_iff_right_of_imp ?_
  rintro ⟨phase, hl, -⟩
  rw [← AList.mem_keys, ← AList.lookup_isSome, hl]
  rfl

theorem mem_registeredLive : c ∈ s.registeredLive ↔
    (∃ phase, s.attempts.lookup c = some phase ∧ phase.isOpen = true) ∧ c ∈ s.registry.connections ∧
    s.registry.Alive c := by
  unfold registeredLive
  rw [Finset.mem_filter, List.mem_toFinset, Option.any_eq_true]
  refine and_iff_right_of_imp ?_
  rintro ⟨⟨phase, hl, -⟩, -⟩
  rw [← AList.mem_keys, ← AList.lookup_isSome, hl]
  rfl

theorem registeredLive_subset : s.registeredLive ⊆ s.holders := by
  intro c hc
  obtain ⟨⟨phase, hl, hopen⟩, -⟩ := mem_registeredLive.1 hc
  refine mem_holders.2 ⟨phase, hl, ?_⟩
  cases phase with
  | registering t => rfl
  | connected => rfl
  | _ => cases hopen

theorem holders_setPhase : (s.setPhase c phase).holders = if phase.holds then insert c s.holders else s.holders.erase c := by
  ext d
  have hmem : d ∈ (s.setPhase c phase).holders ↔ if d = c then phase.holds = true else d ∈ s.holders := by
    rw [mem_holders, mem_holders]
    show (∃ p, (s.attempts.insert c phase).lookup d = some p ∧ _) ↔ _
    rw [Assoc.lookup_insert_eq]
    split
    · simp
    · rfl
  rw [hmem]
  split
  · next hd => cases phase.holds <;> simp [hd]
  · next hd => cases phase.holds <;> simp [hd]

theorem holders_refuse : (s.refuse c).holders = s.holders.erase c := by
  ext d
  rw [mem_holders, Finset.mem_erase, mem_holders]
  show (∃ p, (s.attempts.erase c).lookup d = some p ∧ _) ↔ _
  rw [Assoc.lookup_erase_eq]
  by_cases hd : d = c
  · simp [hd]
  · simp [hd]

theorem holders_of_passes (h : s.Passes c) (hs : s.step setting (.advance c true) = some s') :
    c ∉ s.holders ∧ s'.holders = insert c s.holders := by
  obtain ⟨max, t, hl, hnext, hlt⟩ := h
  constructor
  · intro hc
    obtain ⟨phase, hl', hp⟩ := mem_holders.1 hc
    obtain rfl := Option.some.inj (hl.symm.trans hl')
    cases hp
  · rw [step, hl] at hs
    obtain rfl := Option.some.inj hs
    show (s.advanceCount c max t).holders = _
    unfold advanceCount
    rw [hnext]
    dsimp only
    rw [if_neg (Nat.not_le_of_lt hlt)]
    exact holders_setPhase

theorem holders_step (hs : s.step setting op = some s') :
    s'.holders ⊆ s.holders ∨ ∃ c, op = .advance c true ∧ s.Passes c := by
  have hset : ∀ {c phase}, phase.holds = false ∨ c ∈ s.holders →
    (s.setPhase c phase).holders ⊆ s.holders := by
    intro c phase h
    rw [holders_setPhase]
    split
    · next hp =>
      have hc := h.resolve_left (by rw [hp]; exact nofun)
      exact Finset.insert_subset hc (Finset.Subset.refl _)
    · exact Finset.erase_subset c s.holders
  have hrefuse : ∀ c, (s.refuse c).holders ⊆ s.holders :=
    fun c => holders_refuse ▸ Finset.erase_subset c s.holders
  cases op with
  | attempt c =>
    rw [step] at hs
    split at hs
    · cases hs
    · obtain rfl := Option.some.inj hs
      exact .inl (hset (.inl rfl))
  | readMax c answered connected =>
    rw [step] at hs
    split at hs
    · obtain rfl := Option.some.inj hs
      left
      split
      · exact hset (.inl rfl)
      · exact hrefuse c
    · cases hs
  | advance c ok =>
    rw [step] at hs
    split at hs
    · next max t hl =>
      obtain rfl := Option.some.inj hs
      cases ok with
      | false => exact .inl (hrefuse c)
      | true =>
        show (s.advanceCount c max t).holders ⊆ _ ∨ _
        unfold advanceCount
        cases hnext : (t.advance s.registry).2 with
        | some t' => exact .inl (hset (.inl rfl))
        | none =>
          dsimp only
          by_cases hmax : max ≤ t.activeCount
          · rw [if_pos hmax]
            exact .inl (hrefuse c)
          · exact .inr ⟨c, rfl, max, t, hl, hnext, Nat.lt_of_not_le hmax⟩
    · next t hl =>
      obtain rfl := Option.some.inj hs
      exact .inl (hset (.inr (mem_holders.2 ⟨_, hl, rfl⟩)))
    · cases hs
  | register c connected =>
    rw [step] at hs
    split at hs
    · next hl =>
      obtain rfl := Option.some.inj hs
      exact .inl (hset (.inr (mem_holders.2 ⟨_, hl, rfl⟩)))
    · cases hs
  | finish c task =>
    rw [step] at hs
    split at hs
    · rw [startTask] at hs
      split at hs
      · cases hs
      · obtain rfl := Option.some.inj hs
        exact .inl (hrefuse c)
    · cases hs
  | drop c =>
    obtain rfl := Option.some.inj hs
    exact .inl (hrefuse c)
  | advanceTask task ok =>
    obtain ⟨t, hl, rfl⟩ := Option.map_eq_some_iff.1 hs
    exact .inl (Finset.Subset.refl _)
  | pass millis =>
    obtain rfl := Option.some.inj hs
    exact .inl (Finset.Subset.refl _)
  | heartbeat task c =>
    rw [step, startTask] at hs
    split at hs
    · cases hs
    · obtain rfl := Option.some.inj hs
      exact .inl (Finset.Subset.refl _)
  | count task =>
    rw [step, startTask] at hs
    split at hs
    · cases hs
    · obtain rfl := Option.some.inj hs
      exact .inl (Finset.Subset.refl _)

theorem card_holders_step (h : s.holders.card ≤ maxSimultaneousConnections setting) (hroomy : s.Roomy setting op)
    (hs : s.step setting op = some s') : s'.holders.card ≤ maxSimultaneousConnections setting := by
  rcases holders_step hs with hsub | ⟨c, rfl, hpasses⟩
  · exact (Finset.card_le_card hsub).trans h
  · rw [(holders_of_passes hpasses hs).2]
    exact (Finset.card_insert_le c s.holders).trans (hroomy hpasses)

theorem roomy_of_counted (h : ∀ max t, s.attempts.lookup c = some (.counting max t) →
    max = maxSimultaneousConnections setting ∧
      s.holders.card ≤ t.activeCount) : s.Roomy setting (.advance c true) := by
  rintro ⟨max, t, hl, -, hlt⟩
  obtain ⟨rfl, hle⟩ := h max t hl
  exact hle.trans_lt hlt

/-! ### Checks that leave no room -/

theorem passes_of_not_roomy (h : ¬ s.Roomy setting op) :
    ∃ c, op = .advance c true ∧ s.Passes c ∧ maxSimultaneousConnections setting ≤ s.holders.card := by
  cases op with
  | advance c ok =>
    cases ok with
    | true =>
      obtain ⟨hpasses, hfull⟩ := Classical.not_imp.1 h
      exact ⟨c, rfl, hpasses, Nat.le_of_not_lt hfull⟩
    | false => exact absurd trivial h
  | _ => exact absurd trivial h

def Open (s : LimitState) (c : Uuid) : Prop := ∃ phase, s.attempts.lookup c = some phase ∧ phase.isOpen = true

theorem exists_open (setting : Option String) (hc : c ∈ s.holders) : ∃ ops s', Run.exec (step setting) s ops = some s' ∧
    s'.holders = s.holders ∧ s.registeredLive ⊆ s'.registeredLive ∧ s'.Open c := by
  obtain ⟨phase, hl, hp⟩ := mem_holders.1 hc
  cases phase with
  | admitted =>
    refine ⟨[.register c true], s.setPhase c (.registering (.register c)), ?_, ?_, fun d hd => ?_, ?_⟩
    · rw [Run.exec_singleton, step, hl]
      rfl
    · rw [holders_setPhase]
      exact Finset.insert_eq_of_mem hc
    · obtain ⟨⟨phase, hl', hopen⟩, hreg⟩ := mem_registeredLive.1 hd
      refine mem_registeredLive.2 ⟨⟨phase, ?_, hopen⟩, hreg⟩
      show (s.attempts.insert c _).lookup d = _
      rw [Assoc.lookup_insert_eq, if_neg, hl']
      rintro rfl
      obtain rfl := Option.some.inj (hl.symm.trans hl')
      cases hopen
    · exact ⟨_, Assoc.lookup_insert_self, rfl⟩
  | registering t => exact ⟨[], s, rfl, rfl, Finset.Subset.refl _, _, hl, rfl⟩
  | connected => exact ⟨[], s, rfl, rfl, Finset.Subset.refl _, _, hl, rfl⟩
  | _ => cases hp

theorem step_advanceTask {task : Nat} {t : RegistryTask} (hl : s.tasks.lookup task = some t) :
    s.step setting (.advanceTask task true) = some { s with
      registry := (t.advance s.registry).1
      tasks := Assoc.replace task (t.advance s.registry).2 s.tasks } := by
  rw [step, hl]
  rfl

theorem exists_live (setting : Option String) (hc : s.Open c) : ∃ ops s', Run.exec (step setting) s ops = some s' ∧
    s'.holders = s.holders ∧ insert c s.registeredLive ⊆ s'.registeredLive := by
  obtain ⟨k, hk⟩ := Assoc.exists_lookup_none s.tasks
  let r := (s.registry.sadd c).setEx c
  let tasks := Assoc.replace k (some .expire) (Assoc.replace k (some (.setEx true c)) (s.tasks.insert k (.heartbeat c)))
  refine ⟨[.heartbeat k c, .advanceTask k true, .advanceTask k true], { s with registry := r, tasks }, ?_,
    rfl, ?_⟩
  · have hstart : s.step setting (.heartbeat k c) = some { s with tasks := s.tasks.insert k (.heartbeat c) } := by
      rw [step, startTask, hk]
      rfl
    have hset : (Assoc.replace k (some (.setEx true c)) (s.tasks.insert k (.heartbeat c))).lookup k = some (.setEx true c) :=
      Assoc.lookup_replace.trans (if_pos rfl)
    rw [Run.exec_cons, hstart, Option.bind_some, Run.exec_cons, step_advanceTask Assoc.lookup_insert_self, Option.bind_some,
      Run.exec_singleton]
    exact step_advanceTask (s := ⟨s.registry.sadd c, s.attempts, Assoc.replace k (some (.setEx true c)) _⟩) hset
  · intro d hd
    rcases Finset.mem_insert.1 hd with rfl | hd
    · exact mem_registeredLive.2 ⟨hc, PresenceRegistry.mem_sadd.2 (.inl rfl),
        PresenceRegistry.alive_setEx.2 (.inl rfl)⟩
    · obtain ⟨hopen, hmem, ha⟩ := mem_registeredLive.1 hd
      exact mem_registeredLive.2 ⟨hopen, PresenceRegistry.mem_sadd.2 (.inr hmem),
        PresenceRegistry.alive_setEx.2 (.inr ha)⟩

theorem exists_all_live (setting : Option String) (s : LimitState) :
    ∃ ops s', Run.exec (step setting) s ops = some s' ∧ s'.holders = s.holders ∧
      s'.holders ⊆ s'.registeredLive := by
  refine Run.exists_exec (Q := fun s' : LimitState => s'.holders = s.holders) (fun s' : LimitState => (s'.holders \ s'.registeredLive).card)
    (fun s₁ h₁ hdone => ?_) rfl
  obtain ⟨c, hc, hlive⟩ := Finset.not_subset.1 hdone
  obtain ⟨ops₁, s₂, hexec₁, hholders₁, hsub₁, hopen⟩ := exists_open setting hc
  obtain ⟨ops₂, s₃, hexec₂, hholders₂, hsub₂⟩ := exists_live setting hopen
  refine ⟨ops₁ ++ ops₂, s₃, ?_, (hholders₂.trans hholders₁).trans h₁, ?_⟩
  · rw [Run.exec_append, hexec₁, Option.bind_some, hexec₂]
  · have hsub : insert c s₁.registeredLive ⊆ s₃.registeredLive :=
      (Finset.insert_subset_insert c hsub₁).trans hsub₂
    rw [hholders₂, hholders₁]
    refine Finset.card_lt_card ((Finset.ssubset_iff_of_subset ?_).2 ⟨c, ?_, ?_⟩)
    · exact Finset.sdiff_subset_sdiff (Finset.Subset.refl _) ((Finset.subset_insert c _).trans hsub)
    · exact Finset.mem_sdiff.2 ⟨hc, hlive⟩
    · exact fun hmem => (Finset.mem_sdiff.1 hmem).2 (hsub (Finset.mem_insert_self c _))

/-- In a run whose passing checks all leave room the maximum is kept in every state. Any other passing check of a
run can be followed by a state where it is not. -/
theorem within_of_roomy (setting : Option String) (registry : PresenceRegistry) (ops : List LimitOp) :
    (Run.AllSteps (step setting) (Roomy setting) (init registry) ops →
        Run.AllStates (step setting) (Within setting) (init registry) ops) ∧
      ∀ s op s', Run.exec (step setting) (init registry) ops = some s → s.step setting op = some s' → ¬ s.Roomy setting op →
        ∃ ops' t, Run.exec (step setting) s' ops' = some t ∧ ¬ t.Within setting := by
  constructor
  · intro hroomy
    have hinv : ∀ (s : LimitState) op s', s.holders.card ≤ maxSimultaneousConnections setting → s.Roomy setting op →
        s.step setting op = some s' → s'.holders.card ≤ maxSimultaneousConnections setting :=
      fun _ _ _ h hr hs => card_holders_step h hr hs
    refine (Run.allStates_of_allSteps hinv (Nat.zero_le _) hroomy).mono fun s h => ?_
    exact (Finset.card_le_card registeredLive_subset).trans h
  · intro s op s' _ hs h
    obtain ⟨c, rfl, hpasses, hfull⟩ := passes_of_not_roomy h
    obtain ⟨hc, hinsert⟩ := holders_of_passes hpasses hs
    have hover : maxSimultaneousConnections setting < s'.holders.card := by
      rw [hinsert, Finset.card_insert_of_notMem hc]
      exact Nat.lt_succ_of_le hfull
    obtain ⟨ops', t, hexec, hholders, hsub⟩ := exists_all_live setting s'
    rw [hholders] at hsub
    exact ⟨ops', t, hexec, fun hwithin => absurd (hover.trans_le (Finset.card_le_card hsub)) (Nat.not_lt.2 hwithin)⟩

/-- A v1 and a v4 attempt both count before one of them registers. -/
def twoAttempts : List LimitOp :=
  [.attempt 1, .readMax 1 true true, .advance 1 true, .attempt 2, .readMax 2 true true, .advance 2 true,
    .register 1 true, .advance 1 true, .advance 1 true, .advance 1 true,
    .register 2 true, .advance 2 true, .advance 2 true, .advance 2 true]

theorem two_attempts_exceed :
    ∃ s, Run.exec (step (some "1")) (init (.new 0)) twoAttempts = some s ∧ ¬ s.Within (some "1") := by
  refine ⟨_, rfl, ?_⟩
  decide

end LimitState

end Rustchat
