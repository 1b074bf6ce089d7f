import Rustchat.Lib.Prog
import Rustchat.OauthExchange

/-!
# The sliding window of login attempts (`middleware/rate_limit.rs`)

An attempt to log in is recorded in a sorted set of Redis under the second in which it arrives. Before that, entries
that are as old as the window are removed and the rest is counted. Attempts of one second share an entry, attempts that
count at the same time do not see each other, and an attempt that arrived later may remove entries that an earlier one
should count. Where none of the three happens, the limit holds in every window (`RateLimit.limited_of_accurate`).
-/

namespace Rustchat

namespace RateLimit

open Oauth (CommandFate)

structure RateLimitConfig where
  windowSecs : UInt64
  maxRequests : UInt64

structure RateLimitResult where
  allowed : Bool
  remaining : ℕ
  resetAt : ℕ
deriving DecidableEq

/-- `window_secs as i64` -/
def RateLimitConfig.window (config : RateLimitConfig) : Int := config.windowSecs.toInt64.toInt

inductive RateLimitError
  | connection
  | redis
deriving DecidableEq

inductive RateLimitAct
  -- `chrono::Utc::now().timestamp()`
  | timestamp
  | connect
  | zremrangebyscore (key : String) (min max : Int)
  | zcard (key : String)
  -- the member is the score in decimal
  | zadd (key : String) (score : Int)
  | expire (key : String) (seconds : Int)

def RateLimitAct.Res : RateLimitAct → Type
  | timestamp => Int
  | connect => Option Unit
  | zremrangebyscore _ _ _ => Option Unit
  | zcard _ => Option ℕ
  | zadd _ _ => CommandFate
  | expire _ _ => Option Unit

/-- The scores of a sorted set, and the millisecond until which it lives. -/
structure SortedSet where
  scores : List Int
  expiry : Option Int

structure SetStore where
  sets : Assoc String SortedSet
  now : ℕ

/-- What a step meets: the time that has passed, and how Redis answers. -/
structure Meets where
  elapsed : ℕ
  fate : CommandFate

namespace SetStore

def live (s : SetStore) (key : String) : Option SortedSet :=
  (s.sets.lookup key).filter fun set => set.expiry.all fun expiry => (s.now : Int) ≤ expiry

def scores (s : SetStore) (key : String) : List Int := ((s.live key).map (·.scores)).getD []

/-- A set without entries is no key. -/
def put (s : SetStore) (key : String) (set : SortedSet) : SetStore :=
  { s with sets := if set.scores = [] then s.sets.erase key else s.sets.insert key set }

def removeRange (s : SetStore) (key : String) (min max : Int) : SetStore :=
  match s.live key with
  | none => s
  | some set => s.put key { set with scores := set.scores.filter fun score => ¬ (min ≤ score ∧ score ≤ max) }

def add (s : SetStore) (key : String) (score : Int) : SetStore :=
  match s.live key with
  | none => s.put key ⟨[score], none⟩
  | some set => s.put key { set with scores := if score ∈ set.scores then set.scores else score :: set.scores }

def expire (s : SetStore) (key : String) (seconds : Int) : SetStore :=
  match s.live key with
  | none => s
  | some set =>
    if seconds ≤ 0 then { s with sets := s.sets.erase key }
    else s.put key { set with expiry := some (s.now + seconds * 1000) }

def perform (o : Meets) (act : RateLimitAct) (s : SetStore) : act.Res × SetStore :=
  let s := { s with now := s.now + o.elapsed }
  match act with
  | .timestamp => (((s.now / 1000 : ℕ) : Int), s)
  | .connect => (o.fate.answer (), s)
  | .zremrangebyscore key min max => (o.fate.answer (), if o.fate = .refused then s else s.removeRange key min max)
  | .zcard key => (o.fate.answer (s.scores key).length, s)
  | .zadd key score => (o.fate, if o.fate = .refused then s else s.add key score)
  | .expire key seconds => (o.fate.answer (), if o.fate = .refused then s else s.expire key seconds)

end SetStore

abbrev LimitProg := ExceptT RateLimitError (Prog RateLimitAct RateLimitAct.Res)

def command (act : RateLimitAct) : LimitProg act.Res := ExceptT.lift (Prog.call act)

def timestamp : LimitProg Int := command .timestamp

def recordAttempt (config : RateLimitConfig) (redisKey : String) (now : Int) (currentCount : ℕ) :
    LimitProg RateLimitResult := do
  match ← command (.zadd redisKey now) with
  | .refused => throw .redis
  | .unanswered => throw .redis
  | .answered =>
    match ← command (.expire redisKey config.window) with
    | none => throw .redis
    | some _ => pure ⟨true, config.maxRequests.toNat - currentCount - 1, now.toNat + config.windowSecs.toNat⟩

def redisKey (key : String) : String := "ratelimit:" ++ key

def checkRateLimit (config : RateLimitConfig) (key : String) : LimitProg RateLimitResult := do
  let now ← timestamp
  let windowStart := now - config.window
  match ← command .connect with
  | none => throw .connection
  | some _ =>
    match ← command (.zremrangebyscore (redisKey key) 0 windowStart) with
    | none => throw .redis
    | some _ =>
      match ← command (.zcard (redisKey key)) with
      | none => throw .redis
      | some currentCount =>
        if config.maxRequests.toNat ≤ currentCount then pure ⟨false, 0, now.toNat + config.windowSecs.toNat⟩
        else recordAttempt config (redisKey key) now currentCount

abbrev Attempts := Pool SetStore String RateLimitAct RateLimitAct.Res (Except RateLimitError RateLimitResult)

abbrev Input := Pool.Input String Meets

abbrev Event := Pool.Event SetStore String RateLimitAct RateLimitAct.Res

section Pools

variable (config : RateLimitConfig)

def program (key : String) : Prog RateLimitAct RateLimitAct.Res (Except RateLimitError RateLimitResult) :=
  (checkRateLimit config key).run

abbrev step : Attempts → Input → Option Attempts := Pool.step (program config) fun _ => SetStore.perform

def start (now : ℕ) : Attempts := Pool.start ⟨∅, now⟩

abbrev trace (now : ℕ) (inputs : List Input) : List Event :=
  Pool.trace (program config) (fun _ => SetStore.perform) (start now) inputs

end Pools

def arrives : Event → Option Int
  | ⟨_, _, .timestamp, second, _, _⟩ => some (second : Int)
  | _ => none

def records : Event → Option (String × Int)
  | ⟨_, _, .zadd key score, fate, _, _⟩ =>
    match (fate : CommandFate) with
    | .refused => none
    | _ => some (key, score)
  | _ => none

def counts : Event → Option String
  | ⟨_, _, .zcard key, _, _, _⟩ => some key
  | _ => none

/-- An attempt for the key that arrived in the window from `since` on is let through. -/
def Admitted (config : RateLimitConfig) (events : List Event) (attempts : Attempts) (key : String) (since : Int) (t : ℕ) :
    Prop :=
  ∃ result second, attempts.tasks.lookup t = some ⟨key, .done (.ok result)⟩ ∧ result.allowed = true ∧
    ⟨.timestamp, (second : Int)⟩ ∈ Pool.performed events t ∧ since ≤ second ∧
      second < since + config.windowSecs.toNat

def Limited (config : RateLimitConfig) (events : List Event) (attempts : Attempts) : Prop :=
  ∀ key since (ts : List ℕ), ts.Nodup → (∀ t ∈ ts, Admitted config events attempts key since t) →
    ts.length ≤ config.maxRequests.toNat

def OnePerSecond (older : List Event) (e : Event) : Prop :=
  ∀ entry ∈ records e, ∀ other ∈ older, records other ≠ some entry

def NoneSince (older : List Event) (e : Event) : Prop :=
  ∀ entry ∈ records e, ∀ other ∈ Run.since (fun c => decide (c.task = e.task) && (counts c).isSome) older,
    ∀ entry' ∈ records other, entry'.1 ≠ entry.1

/-- When the entries are counted, all that are recorded in the window that ends with this second are still there. -/
def AllThere (config : RateLimitConfig) (older : List Event) (e : Event) : Prop :=
  ∀ key ∈ counts e, ∀ read ∈ older, read.task = e.task → ∀ second ∈ arrives read, ∀ other ∈ older,
    ∀ entry ∈ records other, entry.1 = key → second - config.windowSecs.toNat < entry.2 →
      entry.2 ∈ e.after.scores key

def Accurate (config : RateLimitConfig) (older : List Event) (e : Event) : Prop :=
  OnePerSecond older e ∧ NoneSince older e ∧ AllThere config older e

instance (config : RateLimitConfig) (older : List Event) (e : Event) : Decidable (Accurate config older e) :=
  inferInstanceAs (Decidable ((∀ entry ∈ records e, ∀ other ∈ older, _) ∧
    (∀ entry ∈ records e, ∀ other ∈ _, ∀ entry' ∈ records other, _) ∧ ∀ key ∈ counts e, ∀ read ∈ older, _ →
      ∀ second ∈ arrives read, ∀ other ∈ older, ∀ entry ∈ records other, _ → _ → _))

/-! ### The program -/

section Program

variable {config : RateLimitConfig} {past : List (Sigma RateLimitAct.Res)}

/-- The clock is read first, and an attempt is recorded in that second after few were counted. -/
def CountedFirst (config : RateLimitConfig) (past : List (Sigma RateLimitAct.Res)) : RateLimitAct → Prop
  | .timestamp => past = []
  | .zadd key score => ⟨.timestamp, score⟩ ∈ past ∧
    ∃ n, n < config.maxRequests.toNat ∧ ⟨.zcard key, (some n : Option ℕ)⟩ ∈ past
  | _ => True

theorem follows_recordAttempt {redisKey : String} {now : Int} {currentCount : ℕ}
    (htime : ⟨.timestamp, now⟩ ∈ past) (hcount : ⟨.zcard redisKey, (some currentCount : Option ℕ)⟩ ∈ past)
    (hfew : currentCount < config.maxRequests.toNat) :
    (recordAttempt config redisKey now currentCount).run.Follows (CountedFirst config) past := by
  refine Prog.follows_run_call.2 ⟨⟨htime, currentCount, hfew, hcount⟩, fun fate => ?_⟩
  match fate with
  | .refused => exact trivial
  | .unanswered => exact trivial
  | .answered =>
    refine Prog.follows_run_call.2 ⟨trivial, fun expired => ?_⟩
    split <;> exact trivial

theorem follows_program (key : String) : (program config key).Follows (CountedFirst config) [] := by
  refine Prog.follows_run_call.2 ⟨rfl, fun now => ?_⟩
  refine Prog.follows_run_call.2 ⟨trivial, fun connected => ?_⟩
  split
  · exact trivial
  · refine Prog.follows_run_call.2 ⟨trivial, fun removed => ?_⟩
    split
    · exact trivial
    · refine Prog.follows_run_call.2 ⟨trivial, fun counted => ?_⟩
      split
      · exact trivial
      · split
        · exact trivial
        · next hfew =>
          exact follows_recordAttempt (by simp) (by simp) (not_le.1 hfew)

theorem path_recordAttempt {redisKey : String} {now : Int} {currentCount : ℕ} {es : List (Sigma RateLimitAct.Res)}
    {result : RateLimitResult} (h : (recordAttempt config redisKey now currentCount).run.Path es (.ok result)) :
    ∃ expired, es = [⟨.zadd redisKey now, CommandFate.answered⟩,
      ⟨.expire redisKey config.window, expired⟩] := by
  obtain ⟨fate, es₁, rfl, h₁⟩ := Prog.path_run_call.1 h
  match fate, h₁ with
  | .refused, h₁ => cases h₁.2
  | .unanswered, h₁ => cases h₁.2
  | .answered, h₁ =>
    obtain ⟨expired, es₂, rfl, h₂⟩ := Prog.path_run_call.1 h₁
    split at h₂
    · cases h₂.2
    · obtain ⟨rfl, -⟩ := h₂
      exact ⟨_, rfl⟩

theorem path_program {key : String} {es : List (Sigma RateLimitAct.Res)} {result : RateLimitResult}
    (h : (program config key).Path es (.ok result)) (hallowed : result.allowed = true) {second : Int}
    (hsecond : ⟨.timestamp, second⟩ ∈ es) : ⟨.zadd (redisKey key) second, CommandFate.answered⟩ ∈ es := by
  obtain ⟨now, es₁, rfl, h₁⟩ := Prog.path_run_call.1 h
  obtain ⟨connected, es₂, rfl, h₂⟩ := Prog.path_run_call.1 h₁
  split at h₂
  · cases h₂.2
  · obtain ⟨removed, es₃, rfl, h₃⟩ := Prog.path_run_call.1 h₂
    split at h₃
    · cases h₃.2
    · obtain ⟨counted, es₄, rfl, h₄⟩ := Prog.path_run_call.1 h₃
      split at h₄
      · cases h₄.2
      · split at h₄
        · cases h₄.2
          cases hallowed
        · obtain ⟨expired, rfl⟩ := path_recordAttempt h₄
          simp only [List.mem_cons, List.not_mem_nil, or_false] at hsecond
          rcases hsecond with hread | hother | hother | hother | hother | hother
          · cases hread
            simp
          all_goals cases hother

end Program

/-! ### Every run -/

section Runs

variable {config : RateLimitConfig} {now : ℕ} {inputs : List Input} {attempts : Attempts}

/-- The second of an attempt for the key that is recorded in the window from `since` on. -/
def recordedIn (config : RateLimitConfig) (key : String) (since : Int) (e : Event) : Option Int :=
  ((records e).filter fun entry =>
    entry.1 = key ∧ since ≤ entry.2 ∧ entry.2 < since + config.windowSecs.toNat).map (·.2)

theorem recordedIn_eq_some {key : String} {since second : Int} {e : Event} :
    recordedIn config key since e = some second ↔ records e = some (key, second) ∧ since ≤ second ∧
      second < since + config.windowSecs.toNat := by
  unfold recordedIn
  rw [Option.map_eq_some_iff]
  constructor
  · rintro ⟨⟨key', second'⟩, hentry, rfl⟩
    obtain ⟨hrecords, hin⟩ := Option.filter_eq_some_iff.1 hentry
    obtain ⟨hkey, hwindow⟩ := of_decide_eq_true hin
    exact ⟨hkey ▸ hrecords, hwindow⟩
  · rintro ⟨hrecords, hin⟩
    exact ⟨(key, second), Option.filter_eq_some_iff.2 ⟨hrecords, decide_eq_true ⟨rfl, hin⟩⟩, rfl⟩

theorem records_eq_some {key : String} {second : Int} {e : Event} (h : records e = some (key, second)) :
    e.act = .zadd key second := by
  obtain ⟨t, label, act, fate, before, after⟩ := e
  cases act with
  | zadd key' score =>
    have heq : (key', score) = (key, second) := by
      match fate, h with
      | .answered, h => exact Option.some.inj h
      | .unanswered, h => exact Option.some.inj h
    cases heq
    rfl
  | _ => cases h

theorem records_of_counts {key : String} {e : Event} (h : counts e = some key) : records e = none := by
  obtain ⟨t, label, act, res, before, after⟩ := e
  cases act with
  | zcard key' => rfl
  | _ => cases h

theorem split_older {older newer before after : List Event} {e other : Event}
    (hsplit : trace config now inputs = older ++ e :: newer) (holder : older = before ++ other :: after) :
    trace config now inputs = before ++ other :: (after ++ e :: newer) := by
  rw [hsplit, holder, List.append_assoc, List.cons_append]

section At

variable (hrun : Run.exec (step config) (start now) inputs = some attempts) {older newer : List Event} {e : Event}
  (hsplit : trace config now inputs = older ++ e :: newer)
include hrun hsplit

theorem countedFirst_at : CountedFirst config (Pool.performed older e.task) e.act :=
  Pool.follows_of_run (W := fun _ => CountedFirst config) follows_program hrun older e newer hsplit

theorem counted_at {key : String} {n : ℕ}
    (hact : (⟨e.act, e.res⟩ : Sigma RateLimitAct.Res) = ⟨.zcard key, (some n : Option ℕ)⟩) :
    n = (e.after.scores key).length := by
  have hmem : e ∈ trace config now inputs := by
    rw [hsplit]
    exact List.mem_append_right _ List.mem_cons_self
  obtain ⟨o, hres, hafter⟩ := Pool.sem_of_run hrun e hmem
  obtain ⟨t, label, act, res, before, after⟩ := e
  cases hact
  dsimp only at hres hafter ⊢
  subst hafter
  exact (Oauth.CommandFate.answer_eq_some.1 hres.symm).2

theorem exists_count {key : String} {second : Int} (hact : e.act = .zadd key second) :
    ∃ before count between, older = before ++ count :: between ∧ count.task = e.task ∧ counts count = some key ∧
      (∃ read ∈ before, read.task = count.task ∧ arrives read = some second) ∧
      (count.after.scores key).length < config.maxRequests.toNat := by
  have hfirst := countedFirst_at hrun hsplit
  rw [hact] at hfirst
  obtain ⟨htime, n, hn, hcount⟩ := hfirst
  obtain ⟨read, hread, hreadTask, hreads⟩ := Pool.mem_performed.1 htime
  obtain ⟨count, hcount, hcountTask, hcounts⟩ := Pool.mem_performed.1 hcount
  have harrives : arrives read = some second := by
    obtain ⟨t, label, act, res, before, after⟩ := read
    cases hreads
    rfl
  have hkey : counts count = some key := by
    obtain ⟨t, label, act, res, before, after⟩ := count
    cases hcounts
    rfl
  rcases Run.older_or_older hread hcount with rfl | ⟨before, between, rfl, hbefore⟩ | ⟨before, between,
    rfl, hbefore⟩
  · cases hreads.symm.trans hcounts
  · refine ⟨before, count, between, rfl, hcountTask, hkey,
      ⟨read, hbefore, hreadTask.trans hcountTask.symm, harrives⟩, ?_⟩
    have hn' := counted_at hrun (split_older hsplit rfl) hcounts
    omega
  · -- nothing comes before the clock is read
    have hempty := countedFirst_at hrun (split_older hsplit rfl)
    rw [show read.act = .timestamp from congrArg Sigma.fst hreads] at hempty
    have hmem := Pool.mem_performed.2 ⟨count, hbefore, hcountTask.trans hreadTask.symm, rfl⟩
    rw [show Pool.performed before read.task = [] from hempty] at hmem
    cases hmem

end At

theorem few_recorded (hrun : Run.exec (step config) (start now) inputs = some attempts)
    (haccurate : Run.Each (Accurate config) (trace config now inputs)) (key : String) (since : Int) :
    (trace config now inputs).countP (fun e => (recordedIn config key since e).isSome) ≤ config.maxRequests.toNat := by
  refine Run.Each.countP_le fun older e newer hsplit hsome => ?_
  obtain ⟨second, hrecorded⟩ := Option.isSome_iff_exists.1 hsome
  obtain ⟨hrecords, -, hhigh⟩ := recordedIn_eq_some.1 hrecorded
  obtain ⟨-, hnone, -⟩ := haccurate older e newer hsplit
  obtain ⟨before, count, between, rfl, htask, hcounts, ⟨read, hread, hreadTask, harrives⟩, hfew⟩ :=
    exists_count hrun hsplit (records_eq_some hrecords)
  obtain ⟨-, -, hthere⟩ := haccurate before count _ (split_older hsplit rfl)
  have hdistinct : (before.filterMap (recordedIn config key since)).Nodup := by
    refine Run.Each.nodup_filterMap fun older' e' newer' hbefore second' hrecorded' other hother hsame => ?_
    have hrecords' := (recordedIn_eq_some.1 hrecorded').1
    obtain ⟨hone, -, -⟩ := haccurate older' e' _ (split_older (split_older hsplit rfl) hbefore)
    exact hone _ hrecords' other hother (recordedIn_eq_some.1 hsame).1
  have hsubset : before.filterMap (recordedIn config key since) ⊆ count.after.scores key := by
    intro second' hmem
    obtain ⟨other, hother, hrecorded'⟩ := List.mem_filterMap.1 hmem
    obtain ⟨hrecords', hlow', -⟩ := recordedIn_eq_some.1 hrecorded'
    exact hthere key hcounts read hread hreadTask second harrives other hother _ hrecords' rfl (by omega)
  have hlater : between.countP (fun e => (recordedIn config key since e).isSome) = 0 := by
    refine List.countP_eq_zero.2 fun other hother hsome' => ?_
    obtain ⟨second', hrecorded'⟩ := Option.isSome_iff_exists.1 hsome'
    have hsince : other ∈ Run.since (fun c => decide (c.task = e.task) && (counts c).isSome)
        (before ++ count :: between) := Run.mem_since (by simp [htask, hcounts]) hother
    exact hnone _ hrecords other hsince _ (recordedIn_eq_some.1 hrecorded').1 rfl
  have hcount : ¬ (recordedIn config key since count).isSome = true := by
    rw [recordedIn, records_of_counts hcounts]
    simp
  have hle := (List.subperm_of_subset hdistinct hsubset).length_le
  rw [List.length_filterMap_eq_countP] at hle
  rw [List.countP_append, List.countP_cons_of_neg (p := fun e => (recordedIn config key since e).isSome) hcount,
    hlater, Nat.add_zero]
  exact hle.trans_lt hfew

/-- In a run in which attempts are recorded in seconds of their own, none between the count and the entry of another,
and what is counted is what was recorded, the limit holds in every window. -/
theorem limited_of_accurate (config : RateLimitConfig) (now : ℕ) (inputs : List Input) (attempts : Attempts)
    (hrun : Run.exec (step config) (start now) inputs = some attempts)
    (haccurate : Run.Each (Accurate config) (trace config now inputs)) :
    Limited config (trace config now inputs) attempts := by
  intro key since ts hnodup hts
  refine (Pool.length_le_countP hnodup fun t ht => ?_).trans (few_recorded hrun haccurate (redisKey key) since)
  obtain ⟨result, second, hl, hallowed, htime, hlow, hhigh⟩ := hts t ht
  obtain ⟨e, he, htask, hact⟩ := Pool.mem_performed.1 (path_program (Pool.path_of_run hrun hl) hallowed htime)
  refine ⟨e, he, htask, Option.isSome_iff_exists.2 ⟨second, recordedIn_eq_some.2 ⟨?_, hlow, hhigh⟩⟩⟩
  obtain ⟨t, label, act, res, before, after⟩ := e
  cases hact
  rfl

def twoAMinute : RateLimitConfig := ⟨60, 2⟩

/-- The first `n` commands of an attempt, some time after what came before. -/
def attempt (t elapsed n : ℕ) : List Input :=
  .spawn t "user" :: .step t ⟨elapsed, .answered⟩ :: List.replicate n (.step t ⟨0, .answered⟩)

/-- Three attempts in one second, one after the other. -/
def threeAtOnce : List Input := attempt 0 0 5 ++ (attempt 1 0 5 ++ attempt 2 0 5)

def threeInTurn : List Input := attempt 0 1000 5 ++ (attempt 1 1000 5 ++ attempt 2 1000 3)

/-- Attempts in one second share an entry. -/
theorem threeAtOnce_notLimited : ∃ attempts, Run.exec (step twoAMinute) (start 0) threeAtOnce = some attempts ∧
    ¬ Limited twoAMinute (trace twoAMinute 0 threeAtOnce) attempts := by
  refine ⟨_, rfl, fun h => absurd (h "user" 0 [0, 1, 2] (by decide) fun t ht => ?_) (by decide)⟩
  simp only [List.mem_cons, List.not_mem_nil, or_false] at ht
  rcases ht with rfl | rfl | rfl
  · exact ⟨⟨true, 1, 60⟩, 0, rfl, rfl, List.mem_of_mem_head? rfl, by decide, by decide⟩
  · exact ⟨⟨true, 0, 60⟩, 0, rfl, rfl, List.mem_of_mem_head? rfl, by decide, by decide⟩
  · exact ⟨⟨true, 0, 60⟩, 0, rfl, rfl, List.mem_of_mem_head? rfl, by decide, by decide⟩

theorem threeInTurn_limited : ∃ attempts, Run.exec (step twoAMinute) (start 0) threeInTurn = some attempts ∧
    attempts.result 2 = some (.ok ⟨false, 0, 63⟩) ∧
      Limited twoAMinute (trace twoAMinute 0 threeInTurn) attempts :=
  ⟨_, rfl, rfl, limited_of_accurate twoAMinute 0 threeInTurn _ rfl (by decide +kernel)⟩

end Runs

end RateLimit

end Rustchat
