import Mathlib.Data.List.DropRight
import Rustchat.Lib.Prog

/-!
# The circuit breaker (`middleware/reliability.rs`)

A request asks the breaker whether it may go on, makes its call and records how that ended; other requests come in
between. `check_state`, `on_success` and `on_failure` hold the lock on the state all the way, so each is one step.
The breaker does not know when the request whose end it records was admitted: a success that was admitted before the
circuit opened closes the half-open circuit as well (`CircuitBreaker.closed_by_stale`). What holds in every
interleaving is `CircuitBreaker.sound_of_run`.
-/

namespace Rustchat

inductive CircuitState
  | closed
  -- `Open`
  | opened
  | halfOpen
deriving DecidableEq

structure CircuitBreakerConfig where
  failureThreshold : UInt32
  -- durations and instants are in nanoseconds
  recoveryTimeout : ℕ
  successThreshold : UInt32

structure CircuitBreaker where
  config : CircuitBreakerConfig
  state : CircuitState
  failures : UInt32
  successes : UInt32
  lastFailure : Option ℕ

inductive CircuitError (E : Type)
  | opened
  | inner (err : E)

inductive RetryCondition
  | always
  | never
  | default

structure RetryConfig where
  maxAttempts : ℕ
  retryIf : RetryCondition

def RetryCondition.shouldRetry : RetryCondition → Bool
  | always => true
  | never => false
  | default => true

namespace CircuitBreaker

def new (config : CircuitBreakerConfig) : CircuitBreaker := ⟨config, .closed, 0, 0, none⟩

def checkState (now : ℕ) (cb : CircuitBreaker) : Except (CircuitError Unit) Unit × CircuitBreaker :=
  match cb.state with
  | .closed => (.ok (), cb)
  | .opened =>
    let shouldAttempt := (cb.lastFailure.map fun t => decide (cb.config.recoveryTimeout ≤ now - t)).getD true
    if shouldAttempt then (.ok (), { cb with state := .halfOpen, successes := 0 }) else (.error .opened, cb)
  | .halfOpen => (.ok (), cb)

def onSuccess (cb : CircuitBreaker) : CircuitBreaker :=
  match cb.state with
  | .halfOpen =>
    let successes := cb.successes + 1
    if cb.config.successThreshold ≤ successes then { cb with successes, state := .closed, failures := 0 }
    else { cb with successes }
  | .closed => if 0 < cb.failures then { cb with failures := 0 } else cb
  | .opened => cb

def onFailure (now : ℕ) (cb : CircuitBreaker) : CircuitBreaker :=
  let failures := cb.failures + 1
  let cb := { cb with failures, lastFailure := some now }
  match cb.state with
  | .closed => if cb.config.failureThreshold ≤ failures then { cb with state := .opened } else cb
  | .halfOpen => { cb with state := .opened }
  | .opened => cb

variable (cb : CircuitBreaker) (now : ℕ)

theorem checkState_cases :
    ((cb.checkState now).2 = cb ∧ (cb.state = .opened → (cb.checkState now).1 = .error .opened)) ∨
      ((cb.checkState now).2 = { cb with state := .halfOpen, successes := 0 } ∧ cb.state = .opened ∧
        ∀ t, cb.lastFailure = some t → cb.config.recoveryTimeout ≤ now - t) := by
  unfold checkState
  cases hstate : cb.state with
  | closed => exact .inl ⟨rfl, fun h => by cases h⟩
  | halfOpen => exact .inl ⟨rfl, fun h => by cases h⟩
  | opened =>
    dsimp only
    split
    · next hattempt =>
      refine .inr ⟨rfl, rfl, fun t ht => ?_⟩
      rw [ht] at hattempt
      exact of_decide_eq_true hattempt
    · exact .inl ⟨rfl, fun _ => rfl⟩

/-- A success closes the half-open circuit when there are enough of them; otherwise the state stays. -/
theorem onSuccess_cases :
    (cb.state ≠ .halfOpen ∧ ∃ failures, cb.onSuccess = { cb with failures } ∧ failures ≤ cb.failures) ∨
      (cb.state = .halfOpen ∧ cb.config.successThreshold ≤ cb.successes + 1 ∧
        cb.onSuccess = { cb with successes := cb.successes + 1, state := .closed, failures := 0 }) ∨
      (cb.state = .halfOpen ∧ cb.successes + 1 < cb.config.successThreshold ∧
        cb.onSuccess = { cb with successes := cb.successes + 1 }) := by
  obtain ⟨config, state, failures, successes, lastFailure⟩ := cb
  cases state with
  | closed =>
    refine .inl ⟨fun h => (by cases h), ?_⟩
    by_cases hpos : 0 < failures
    · exact ⟨0, if_pos hpos, UInt32.le_iff_toNat_le.2 (Nat.zero_le _)⟩
    · exact ⟨failures, if_neg hpos, UInt32.le_refl _⟩
  | opened => exact .inl ⟨fun h => (by cases h), failures, rfl, UInt32.le_refl _⟩
  | halfOpen =>
    by_cases hle : config.successThreshold ≤ successes + 1
    · exact .inr (.inl ⟨rfl, hle, if_pos hle⟩)
    · exact .inr (.inr ⟨rfl, UInt32.not_le.1 hle, if_neg hle⟩)

theorem onFailure_cases : ∃ state, cb.onFailure now =
      { cb with failures := cb.failures + 1, lastFailure := some now, state } ∧
    (state = .opened ∨ (state = .closed ∧ cb.state = .closed ∧ cb.failures + 1 < cb.config.failureThreshold)) := by
  unfold onFailure
  cases hstate : cb.state with
  | closed =>
    dsimp only
    split
    · exact ⟨.opened, rfl, .inl rfl⟩
    · next hlt => exact ⟨.closed, rfl, .inr ⟨rfl, rfl, UInt32.not_le.1 hlt⟩⟩
  | halfOpen => exact ⟨.opened, rfl, .inl rfl⟩
  | opened => exact ⟨.opened, rfl, .inl rfl⟩

end CircuitBreaker

/-! ### Requests -/

inductive BreakerAct
  | checkState
  -- the function that is protected
  | call
  | onSuccess
  | onFailure

def BreakerAct.Res (T E : Type) : BreakerAct → Type
  | checkState => Except (CircuitError Unit) Unit
  | call => Except E T
  | onSuccess => Unit
  | onFailure => Unit

structure Circuit where
  breaker : CircuitBreaker
  now : ℕ

namespace Circuit

variable {T E : Type}

/-- An access `elapsed` after the one before; `outcome` is what a call returns. -/
def perform (o : ℕ × Except E T) (act : BreakerAct) (s : Circuit) : act.Res T E × Circuit :=
  let now := s.now + o.1
  match act with
  | .checkState => ((s.breaker.checkState now).1, ⟨(s.breaker.checkState now).2, now⟩)
  | .call => (o.2, ⟨s.breaker, now⟩)
  | .onSuccess => ((), ⟨s.breaker.onSuccess, now⟩)
  | .onFailure => ((), ⟨s.breaker.onFailure now, now⟩)

abbrev BreakerProg (T E : Type) := Prog BreakerAct (BreakerAct.Res T E)

def record : Except E T → BreakerProg T E (Except (CircuitError E) T)
  | .ok result => do
    Prog.call BreakerAct.onSuccess
    pure (.ok result)
  | .error err => do
    Prog.call BreakerAct.onFailure
    pure (.error (.inner err))

def protect (call : BreakerProg T E (Except E T)) :
    Except (CircuitError Unit) Unit → BreakerProg T E (Except (CircuitError E) T)
  | .error .opened => pure (.error .opened)
  | _ => do
    let outcome ← call
    record outcome

def execute : BreakerProg T E (Except (CircuitError E) T) := do
  let allowed ← Prog.call BreakerAct.checkState
  protect (Prog.call BreakerAct.call) allowed

/-- `with_retry` with `left` attempts left (the first is made in any case); the delay between two attempts is time
that passes before the next step. -/
def withRetry (retryIf : RetryCondition) : (left : ℕ) → BreakerProg T E (Except E T)
  | 0 => Prog.call BreakerAct.call
  | left + 1 => do
    let outcome ← Prog.call BreakerAct.call
    match outcome with
    | Except.ok result => pure (.ok result)
    | Except.error err =>
      if left = 0 then pure (.error err)
      else if retryIf.shouldRetry then withRetry retryIf left
      else pure (.error err)

def withResilience (retry : RetryConfig) : BreakerProg T E (Except (CircuitError E) T) := do
  let allowed ← Prog.call BreakerAct.checkState
  protect (withRetry retry.retryIf retry.maxAttempts) allowed

inductive Request
  | execute
  | withResilience (retry : RetryConfig)

def Request.run : Request → BreakerProg T E (Except (CircuitError E) T)
  | .execute => Circuit.execute
  | .withResilience retry => Circuit.withResilience retry

abbrev Requests (T E : Type) := Pool Circuit Request BreakerAct (BreakerAct.Res T E) (Except (CircuitError E) T)

abbrev Input (T E : Type) := Pool.Input Request (ℕ × Except E T)

abbrev step : Requests T E → Input T E → Option (Requests T E) := Pool.step Request.run fun _ => perform

def start (config : CircuitBreakerConfig) (now : ℕ) : Requests T E := Pool.start ⟨.new config, now⟩

abbrev Event (T E : Type) := Pool.Event Circuit Request BreakerAct (BreakerAct.Res T E)

/-! ### What the breaker has recorded -/

def admits : Event T E → Bool
  | ⟨_, _, .checkState, .ok _, _, _⟩ => true
  | _ => false

def succeeds (e : Event T E) : Bool :=
  match e.act with
  | .onSuccess => true
  | _ => false

def fails (e : Event T E) : Bool :=
  match e.act with
  | .onFailure => true
  | _ => false

/-- What has happened since the circuit last became half-open, from the request that made it so. -/
def sinceHalfOpen (events : List (Event T E)) : List (Event T E) :=
  events.rtakeWhile fun e => e.after.breaker.state = .halfOpen

def lastFailed (events : List (Event T E)) : Option (Event T E) := (events.filter fails).getLast?

/-- A success of a request that was admitted among the given steps. -/
def succeedsSince (since : List (Event T E)) (e : Event T E) : Bool :=
  succeeds e && since.any fun a => a.task == e.task && admits a

/-- The half-open circuit is closed only after `success_threshold` of the steps counted by `counts` since it became
half-open. -/
def ClosesAfter (counts : List (Event T E) → Event T E → Bool) (config : CircuitBreakerConfig) :
    List (Event T E) → Prop :=
  Run.Each fun older e => e.before.breaker.state = .halfOpen → e.after.breaker.state = .closed →
    config.successThreshold.toNat ≤ (sinceHalfOpen older ++ [e]).countP (counts (sinceHalfOpen older))

/-- An open circuit lets requests through only from `recovery_timeout` after the last failure. -/
def AdmitsLate (config : CircuitBreakerConfig) : List (Event T E) → Prop :=
  Run.Each fun older e => e.before.breaker.state = .opened → admits e →
    ∃ f, lastFailed older = some f ∧ f.after.now + config.recoveryTimeout ≤ e.after.now

/-- A closed circuit has counted fewer failures than `failure_threshold`. -/
def FewFailures (config : CircuitBreakerConfig) (cb : CircuitBreaker) : Prop :=
  cb.state = .closed → cb.failures < config.failureThreshold

structure Counted (config : CircuitBreakerConfig) (events : List (Event T E)) (s : Circuit) : Prop where
  configured : s.breaker.config = config
  closed : FewFailures config s.breaker
  halfOpen : s.breaker.state = .halfOpen → (sinceHalfOpen events).countP succeeds = s.breaker.successes.toNat ∧
    s.breaker.successes < config.successThreshold
  elsewhere : s.breaker.state ≠ .halfOpen → sinceHalfOpen events = []
  opened : s.breaker.state = .opened → (lastFailed events).isSome
  lastFailure : s.breaker.lastFailure = (lastFailed events).map fun f => f.after.now
  past : ∀ f, lastFailed events = some f → f.after.now ≤ s.now

section Counted

variable {config : CircuitBreakerConfig} {events : List (Event T E)} {e : Event T E} {s : Circuit}

theorem lastFailed_concat : lastFailed (events ++ [e]) = if fails e then some e else lastFailed events := by
  unfold lastFailed
  rw [List.filter_append]
  cases h : fails e with
  | true => rw [List.filter_cons_of_pos h, List.filter_nil, List.getLast?_concat]; rfl
  | false => rw [List.filter_cons_of_neg (by simp [h]), List.filter_nil, List.append_nil]; rfl

theorem sinceHalfOpen_concat : sinceHalfOpen (events ++ [e]) =
    if e.after.breaker.state = .halfOpen then sinceHalfOpen events ++ [e] else [] := by
  unfold sinceHalfOpen
  rw [List.rtakeWhile_concat]
  simp only [decide_eq_true_eq]

theorem toNat_add_one {a b : UInt32} (h : a < b) : (a + 1).toNat = a.toNat + 1 := by
  have hlt : a.toNat < b.toNat := UInt32.lt_iff_toNat_lt.1 h
  have hb := b.toNat_lt
  rw [UInt32.toNat_add]
  exact Nat.mod_eq_of_lt (by simp; omega)

variable (h : Counted config events s) (hnow : s.now ≤ e.after.now)

include h hnow

theorem Counted.past_concat (hfail : fails e = false) (f : Event T E) (hlast : lastFailed (events ++ [e]) = some f) :
    f.after.now ≤ e.after.now := by
  rw [lastFailed_concat, hfail] at hlast
  exact (h.past f hlast).trans hnow

theorem Counted.idle (he : e.after.breaker = s.breaker) (hok : succeeds e = false) (hfail : fails e = false) :
    Counted config (events ++ [e]) e.after := by
  refine ⟨by rw [he, h.configured], by rw [he]; exact h.closed, fun hstate => ?_, fun hstate => ?_, fun hstate => ?_, ?_,
    h.past_concat hnow hfail⟩
  · rw [he] at hstate
    rw [sinceHalfOpen_concat, he, if_pos hstate, List.countP_append]
    simpa [hok] using h.halfOpen hstate
  · rw [sinceHalfOpen_concat, if_neg hstate]
  · rw [he] at hstate
    rw [lastFailed_concat, hfail]
    exact h.opened hstate
  · rw [lastFailed_concat, hfail, he]
    exact h.lastFailure

theorem Counted.checkState (hs : 1 ≤ config.successThreshold) {now : ℕ}
    (he : e.after.breaker = (s.breaker.checkState now).2) (hok : succeeds e = false) (hfail : fails e = false) :
    Counted config (events ++ [e]) e.after := by
  rcases CircuitBreaker.checkState_cases s.breaker now with ⟨hsame, -⟩ | ⟨hnew, hopened, -⟩
  · exact h.idle hnow (he.trans hsame) hok hfail
  · rw [hnew] at he
    have hstate : e.after.breaker.state = .halfOpen := by rw [he]
    have hnone : sinceHalfOpen events = [] := h.elsewhere (by simp [hopened])
    refine ⟨by rw [he]; exact h.configured, fun hother => ?_, fun _ => ⟨?_, ?_⟩, fun hother => absurd hstate hother,
      fun hother => ?_, ?_, h.past_concat hnow hfail⟩
    · cases hstate.symm.trans hother
    · rw [sinceHalfOpen_concat, if_pos hstate, hnone, he, List.nil_append, List.countP_singleton, hok]
      rfl
    · rw [he]
      exact UInt32.lt_iff_toNat_lt.2 (UInt32.le_iff_toNat_le.1 hs)
    · cases hstate.symm.trans hother
    · rw [lastFailed_concat, hfail, he]
      exact h.lastFailure

theorem Counted.onSuccess (hf : 1 ≤ config.failureThreshold) (he : e.after.breaker = s.breaker.onSuccess)
    (hok : succeeds e = true) (hfail : fails e = false) : Counted config (events ++ [e]) e.after := by
  have hlast : lastFailed (events ++ [e]) = lastFailed events := by rw [lastFailed_concat, hfail]; rfl
  rcases CircuitBreaker.onSuccess_cases s.breaker with
    ⟨hother, failures, hnew, hle⟩ | ⟨hhalf, hle, hnew⟩ | ⟨hhalf, hlt, hnew⟩
  · have hstate : e.after.breaker.state = s.breaker.state := by rw [he, hnew]
    refine ⟨by rw [he, hnew]; exact h.configured, fun hclosed => ?_, fun hhalf => absurd (hstate.symm.trans hhalf) hother,
      fun hnot => ?_, fun hopened => ?_, by rw [hlast, he, hnew]; exact h.lastFailure, h.past_concat hnow hfail⟩
    · rw [he, hnew]
      exact UInt32.lt_of_le_of_lt hle (h.closed (hstate.symm.trans hclosed))
    · rw [sinceHalfOpen_concat, if_neg hnot]
    · rw [hlast]
      exact h.opened (hstate.symm.trans hopened)
  · have hstate : e.after.breaker.state = .closed := by rw [he, hnew]
    refine ⟨by rw [he, hnew]; exact h.configured, fun _ => ?_, fun hother => ?_, fun hnot => ?_, fun hother => ?_,
      by rw [hlast, he, hnew]; exact h.lastFailure, h.past_concat hnow hfail⟩
    · rw [he, hnew]
      exact UInt32.lt_iff_toNat_lt.2 (UInt32.le_iff_toNat_le.1 hf)
    · cases hstate.symm.trans hother
    · rw [sinceHalfOpen_concat, if_neg hnot]
    · cases hstate.symm.trans hother
  · obtain ⟨hcount, hfew⟩ := h.halfOpen hhalf
    have hstate : e.after.breaker.state = .halfOpen := by rw [he, hnew]; exact hhalf
    refine ⟨by rw [he, hnew]; exact h.configured, fun hother => ?_, fun _ => ⟨?_, ?_⟩,
      fun hnot => absurd hstate hnot, fun hother => ?_, by rw [hlast, he, hnew]; exact h.lastFailure,
      h.past_concat hnow hfail⟩
    · cases hstate.symm.trans hother
    · rw [sinceHalfOpen_concat, if_pos hstate, List.countP_append, hcount, List.countP_singleton, hok, he, hnew,
        toNat_add_one hfew]
      rfl
    · rw [he, hnew, ← h.configured]
      exact hlt
    · cases hstate.symm.trans hother

omit hnow in
theorem Counted.onFailure (he : e.after.breaker = s.breaker.onFailure e.after.now) (hfail : fails e = true) :
    Counted config (events ++ [e]) e.after := by
  obtain ⟨state, hnew, hstate⟩ := CircuitBreaker.onFailure_cases s.breaker e.after.now
  have hlast : lastFailed (events ++ [e]) = some e := by rw [lastFailed_concat, hfail]; rfl
  have hnot : e.after.breaker.state ≠ .halfOpen := by
    rw [he, hnew]
    rcases hstate with rfl | ⟨rfl, -⟩ <;> exact fun h => by cases h
  refine ⟨by rw [he, hnew]; exact h.configured, fun hclosed => ?_, fun hhalf => absurd hhalf hnot, fun _ => ?_,
    fun _ => by rw [hlast]; rfl, by rw [hlast, he, hnew]; rfl, fun f hf => ?_⟩
  · rw [he, hnew] at hclosed ⊢
    rcases hstate with rfl | ⟨-, -, hlt⟩
    · cases hclosed
    · rw [← h.configured]
      exact hlt
  · rw [sinceHalfOpen_concat, if_neg hnot]
  · rw [hlast] at hf
    cases hf
    exact le_refl _

omit hnow in
theorem Counted.closes (hhalf : s.breaker.state = .halfOpen) (hclosed : s.breaker.onSuccess.state = .closed)
    (hok : succeeds e = true) : config.successThreshold.toNat ≤ (sinceHalfOpen events ++ [e]).countP succeeds := by
  obtain ⟨hcount, hfew⟩ := h.halfOpen hhalf
  rcases CircuitBreaker.onSuccess_cases s.breaker with ⟨hother, -⟩ | ⟨-, hle, -⟩ | ⟨-, -, hnew⟩
  · exact absurd hhalf hother
  · rw [List.countP_append, hcount, List.countP_singleton, if_pos hok, ← toNat_add_one hfew, ← h.configured]
    exact UInt32.le_iff_toNat_le.1 hle
  · rw [hnew, hhalf] at hclosed
    cases hclosed

omit hnow in
/-- An open circuit lets a request through only from `recovery_timeout` after the last failure. -/
theorem Counted.admits {now : ℕ} (hnow : s.now ≤ now) (hstate : s.breaker.state = .opened)
    (hok : (s.breaker.checkState now).1 = .ok ()) :
    ∃ f, lastFailed events = some f ∧ f.after.now + config.recoveryTimeout ≤ now := by
  obtain ⟨f, hf⟩ := Option.isSome_iff_exists.1 (h.opened hstate)
  have hlast : s.breaker.lastFailure = some f.after.now := by rw [h.lastFailure, hf]; rfl
  rcases CircuitBreaker.checkState_cases s.breaker now with ⟨-, hrejects⟩ | ⟨-, -, hlate⟩
  · cases hok.symm.trans (hrejects hstate)
  · have hle := hlate _ hlast
    rw [h.configured] at hle
    have hpast := (h.past f hf).trans hnow
    exact ⟨f, hf, by omega⟩

end Counted

theorem counted_perform {config : CircuitBreakerConfig} {events : List (Event T E)} {s : Circuit}
    (hf : 1 ≤ config.failureThreshold) (hs : 1 ≤ config.successThreshold) (h : Counted config events s) (t : ℕ)
    (label : Request) (o : ℕ × Except E T) (act : BreakerAct) :
    let e : Event T E := ⟨t, label, act, (perform o act s).1, s, (perform o act s).2⟩
    Counted config (events ++ [e]) e.after ∧
      (s.breaker.state = .halfOpen → e.after.breaker.state = .closed →
        config.successThreshold.toNat ≤ (sinceHalfOpen events ++ [e]).countP succeeds) ∧
      (s.breaker.state = .opened → admits e →
        ∃ f, lastFailed events = some f ∧ f.after.now + config.recoveryTimeout ≤ e.after.now) := by
  intro e
  have hnow : s.now ≤ e.after.now := by cases act <;> exact Nat.le_add_right _ _
  cases act with
  | checkState =>
    refine ⟨h.checkState hnow hs rfl rfl rfl, fun hhalf hclosed => ?_, fun hopened hok => h.admits hnow hopened ?_⟩
    · have hafter : e.after.breaker = (s.breaker.checkState (s.now + o.1)).2 := rfl
      rw [hafter] at hclosed
      rcases CircuitBreaker.checkState_cases s.breaker (s.now + o.1) with ⟨hsame, -⟩ | ⟨hnew, -, -⟩
      · rw [hsame, hhalf] at hclosed
        cases hclosed
      · rw [hnew] at hclosed
        cases hclosed
    · cases hres : (s.breaker.checkState (s.now + o.1)).1 with
      | ok u => exact hres
      | error err =>
        simp [e, perform, hres, Circuit.admits] at hok
  | call =>
    refine ⟨h.idle hnow rfl rfl rfl, fun hhalf hclosed => ?_, fun _ hok => (by cases hok)⟩
    cases hhalf.symm.trans hclosed
  | onSuccess =>
    exact ⟨h.onSuccess hnow hf rfl rfl rfl, fun hhalf hclosed => h.closes hhalf hclosed rfl, fun _ hok => (by cases hok)⟩
  | onFailure =>
    refine ⟨h.onFailure rfl rfl, fun hhalf hclosed => ?_, fun _ hok => (by cases hok)⟩
    obtain ⟨state, hnew, hstate⟩ := CircuitBreaker.onFailure_cases s.breaker (s.now + o.1)
    have hafter : e.after.breaker = s.breaker.onFailure (s.now + o.1) := rfl
    rw [hafter, hnew] at hclosed
    rcases hstate with rfl | ⟨-, hother, -⟩
    · cases hclosed
    · cases hhalf.symm.trans hother

/-- What is promised of every interleaving: few failures are counted while the circuit is closed, the half-open
circuit is closed only after enough successes since it became half-open (of requests admitted at any time), and the
open circuit lets requests through only when the timeout has passed since the last failure. -/
structure Sound (config : CircuitBreakerConfig) (events : List (Event T E)) (requests : Requests T E) : Prop where
  closed : FewFailures config requests.shared.breaker
  recovered : ClosesAfter (fun _ => succeeds) config events
  admitted : AdmitsLate config events

theorem sound_of_run (config : CircuitBreakerConfig) (hf : 1 ≤ config.failureThreshold)
    (hs : 1 ≤ config.successThreshold) (now : ℕ) (inputs : List (Input T E)) (requests : Requests T E)
    (hrun : Run.exec step (start config now) inputs = some requests) :
    Sound config (Pool.trace Request.run (fun _ => perform) (start config now) inputs) requests := by
  have hinv := Pool.trace_invariant (P := fun events requests => Counted config events requests.shared ∧
    ClosesAfter (fun _ => succeeds) config events ∧ AdmitsLate config events)
    (fun _ _ _ _ h _ => h) (fun events requests t o label act next h hp => ?_)
    ⟨⟨rfl, fun _ => ?_, fun h => (by cases h), fun _ => rfl, fun h => (by cases h), rfl, fun f h => (by cases h)⟩,
      Run.each_nil, Run.each_nil⟩ hrun
  · exact ⟨hinv.1.closed, hinv.2.1, hinv.2.2⟩
  · obtain ⟨hcounted, hcloses, hadmits⟩ := h
    obtain ⟨hcounted', hclosed, hadmitted⟩ := counted_perform hf hs hcounted t label o act
    exact ⟨hcounted', Run.each_concat.2 ⟨hcloses, hclosed⟩, Run.each_concat.2 ⟨hadmits, hadmitted⟩⟩
  · exact UInt32.lt_iff_toNat_lt.2 (UInt32.le_iff_toNat_le.1 hf)

/-- One failure opens the circuit, and one success closes it again. -/
def fragile : CircuitBreakerConfig := ⟨1, 10, 1⟩

/-- Requests 0 and 1 are let through; 1 fails and the circuit opens. After the timeout request 2 is let through and the
circuit is half-open. Then request 0, which was under way all the time, ends. -/
def staleSuccess : List (Input Unit Unit) :=
  [.spawn 0 .execute, .step 0 (0, .ok ()), .spawn 1 .execute, .step 1 (0, .ok ()), .step 1 (0, .error ()),
    .step 1 (0, .ok ()), .spawn 2 .execute, .step 2 (10, .ok ()), .step 0 (0, .ok ()), .step 0 (0, .ok ())]

theorem staleSuccess_sound : ∃ requests, Run.exec step (start fragile 0) staleSuccess = some requests ∧
    Sound fragile (Pool.trace Request.run (fun _ => perform) (start fragile 0) staleSuccess) requests :=
  ⟨_, rfl, sound_of_run fragile (by decide) (by decide) 0 staleSuccess _ rfl⟩

/-- No success of a request that was admitted since then has closed the circuit. -/
theorem closed_by_stale : ¬ ∀ (config : CircuitBreakerConfig), 1 ≤ config.failureThreshold →
    1 ≤ config.successThreshold → ∀ (now : ℕ) (inputs : List (Input Unit Unit)) (requests : Requests Unit Unit),
    Run.exec step (start config now) inputs = some requests → ClosesAfter succeedsSince config
      (Pool.trace Request.run (fun _ => perform) (start config now) inputs) := by
  intro h
  obtain ⟨requests, hrun⟩ : ∃ requests, Run.exec step (start fragile 0) staleSuccess = some requests := ⟨_, rfl⟩
  have hcloses := h fragile (by decide) (by decide) 0 staleSuccess requests hrun
  let events := Pool.trace Request.run (fun _ => perform) (start fragile 0) staleSuccess
  obtain ⟨older, e, hevents, hhalf, hclosed, hcount⟩ : ∃ older e, events = older ++ e :: [] ∧
      e.before.breaker.state = .halfOpen ∧ e.after.breaker.state = .closed ∧
        (sinceHalfOpen older ++ [e]).countP (succeedsSince (sinceHalfOpen older)) = 0 :=
    ⟨events.dropLast, events.getLast (by decide), (List.dropLast_append_getLast _).symm, by decide, by decide, by decide⟩
  have hle := hcloses older e [] hevents hhalf hclosed
  rw [hcount] at hle
  exact absurd hle (by decide)

end Circuit

end Rustchat
