import Mathlib.Tactic.Linarith
import Rustchat.EmailWorker
import Rustchat.Lib.Binary64

/-!
# The delay before the next attempt (`jobs/email_worker.rs`)

`calculate_backoff` doubles the delay with every attempt up to a maximum and moves it by up to a tenth at random.
`EmailBackoff.retries_iff` says for which delays it gets through: the power and the product overflow for large counts,
and for a delay of less than ten seconds the range of the jitter is empty.
-/

namespace Rustchat

namespace EmailBackoff

def second : Int := 1000000000

/-- The first and the last instant that `DateTime<Utc>` has. -/
def minUtc : Int := -8334601228800 * second

def maxUtc : Int := 8210266876799 * second + 999999999

/-- The part of the worker's configuration that `calculate_backoff` is given. -/
structure RetryDelays where
  retryBaseDelaySecs : Int64
  retryMaxDelaySecs : Int64

/-- A result in `i64`, unless it overflows. -/
def checked (n : Int) : Option Int := if -2 ^ 63 ≤ n ∧ n < 2 ^ 63 then some n else none

/-- `2_i64.pow` -/
def powTwo (exponent : ℕ) : Option Int := if exponent < 63 then some (2 ^ exponent) else none

/-- `i64::rem_euclid` -/
def remEuclid (n modulus : Int) : Option Int := if modulus = 0 then none else some (n % modulus)

def jitterOf (delay : Int) : Int := (Binary64.mul (Binary64.ofInt delay) Binary64.tenth).toInt

def jittered (delay : Int) (random : Int64) : Option Int :=
  let jitter := jitterOf delay
  (checked (jitter * 2)).bind fun modulus =>
  (remEuclid random.toInt modulus).bind fun drawn =>
  (checked (delay + drawn)).bind fun raised => checked (raised - jitter)

/-- `Duration::seconds` -/
def durationSeconds (seconds : Int) : Option Int :=
  if -9223372036854775 ≤ seconds ∧ seconds ≤ 9223372036854775 then some (seconds * second) else none

def addUtc (now duration : Int) : Option Int :=
  if minUtc ≤ now + duration ∧ now + duration ≤ maxUtc then some (now + duration) else none

/-- `none` is a panic. The count is read as a `u32`. -/
def calculateBackoff (attemptCount : Int) (baseDelaySecs maxDelaySecs random : Int64) (utcNow : Int) : Option Int :=
  (powTwo (attemptCount % 2 ^ 32).toNat).bind fun power =>
  (checked (baseDelaySecs.toInt * power)).bind fun delay =>
  (jittered (min delay maxDelaySecs.toInt) random).bind fun delay =>
  (durationSeconds delay).bind fun duration => addUtc utcNow duration

/-! ### What it should be -/

def exactDelay (delays : RetryDelays) (attemptCount : Int) : Int :=
  min (delays.retryBaseDelaySecs.toInt * 2 ^ attemptCount.toNat) delays.retryMaxDelaySecs.toInt

/-- Whatever is drawn, the next attempt is scheduled with a delay that is at most a tenth off. -/
def Retries (config : EmailWorkerConfig) (delays : RetryDelays) (s : EmailRun) (id : Uuid) (row email : EmailOutbox)
    (error : String) (now : Int) : Prop :=
  ∀ random : Int64, ∃ delay,
    let next := calculateBackoff email.attemptCount delays.retryBaseDelaySecs delays.retryMaxDelaySecs random now
    10 * |delay - exactDelay delays email.attemptCount| ≤ exactDelay delays email.attemptCount ∧
      next = some (now + delay * second) ∧ (s.handleDeliveryError config id email error next).outbox.lookup id =
        some (row.scheduleRetry (classifyError error) error (now + delay * second))

theorem jitterOf_eq {delay : Int} (hpos : 0 ≤ delay) (hlt : delay < 2 ^ 45) : jitterOf delay = delay / 10 := by
  obtain ⟨d, rfl⟩ := Int.eq_ofNat_of_zero_le hpos
  rw [jitterOf, Binary64.toInt_mul_tenth (by omega)]
  rfl

theorem checked_eq_some {n m : Int} : checked n = some m ↔ (-2 ^ 63 ≤ n ∧ n < 2 ^ 63) ∧ n = m := by
  rw [checked, Option.ite_none_right_eq_some, Option.some_inj]

theorem jittered_of_lt {delay : Int} (hten : 10 ≤ delay) (hlt : delay < 2 ^ 45) (random : Int64) :
    jittered delay random = some (delay + random.toInt % (delay / 10 * 2) - delay / 10) := by
  have hmodulus : checked (delay / 10 * 2) = some (delay / 10 * 2) := checked_eq_some.2 ⟨by omega, rfl⟩
  have hlow := Int.emod_nonneg random.toInt (b := delay / 10 * 2) (by omega)
  have hhigh := Int.emod_lt_of_pos random.toInt (b := delay / 10 * 2) (by omega)
  have hraised : checked (delay + random.toInt % (delay / 10 * 2)) = some (delay + random.toInt % (delay / 10 * 2)) :=
    checked_eq_some.2 ⟨by omega, rfl⟩
  unfold jittered
  dsimp only
  rw [jitterOf_eq (by omega) hlt, hmodulus, Option.bind_some, remEuclid, if_neg (by omega), Option.bind_some, hraised,
    Option.bind_some]
  exact checked_eq_some.2 ⟨by omega, rfl⟩

theorem jittered_of_small {delay : Int} (hpos : 0 ≤ delay) (hlt : delay < 10) (random : Int64) :
    jittered delay random = none := by
  have hzero : jitterOf delay = 0 := by
    rw [jitterOf_eq hpos (by omega)]
    omega
  unfold jittered
  dsimp only
  rw [hzero]
  rfl

theorem exists_int64 {n : Int} (hlow : -2 ^ 63 ≤ n) (hhigh : n < 2 ^ 63) : ∃ random : Int64, random.toInt = n :=
  ⟨Int64.ofInt n, Int64.toInt_ofInt_of_le hlow hhigh⟩

theorem exists_jittered_ge (delay : Int) : ∃ random, ∀ moved, jittered delay random = some moved → delay ≤ moved := by
  by_cases hjitter : 0 < jitterOf delay ∧ jitterOf delay * 2 < 2 ^ 63
  · obtain ⟨random, hrandom⟩ := exists_int64 (n := jitterOf delay * 2 - 1) (by omega) (by omega)
    refine ⟨random, fun moved h => ?_⟩
    simp only [jittered, Option.bind_eq_some_iff, checked_eq_some, remEuclid, Option.ite_none_left_eq_some] at h
    obtain ⟨_, ⟨-, rfl⟩, drawn, ⟨-, hdrawn⟩, _, ⟨-, rfl⟩, -, rfl⟩ := h
    have hmod := Int.emod_eq_of_lt (a := jitterOf delay * 2 - 1) (b := jitterOf delay * 2) (by omega) (by omega)
    rw [hrandom, hmod, Option.some_inj] at hdrawn
    omega
  · obtain ⟨random, hrandom⟩ := exists_int64 (n := 0) (by decide) (by decide)
    refine ⟨random, fun moved h => ?_⟩
    simp only [jittered, Option.bind_eq_some_iff, checked_eq_some, remEuclid, Option.ite_none_left_eq_some] at h
    obtain ⟨_, ⟨hrange, rfl⟩, drawn, ⟨hne, hdrawn⟩, _, ⟨-, rfl⟩, -, rfl⟩ := h
    rw [hrandom, Int.zero_emod, Option.some_inj] at hdrawn
    omega

/-! ### Which delays get through -/

theorem powTwo_count {count : Int} (hlow : -2 ^ 31 ≤ count) (hhigh : count < 2 ^ 31) {power : Int} :
    powTwo (count % 2 ^ 32).toNat = some power ↔ 0 ≤ count ∧ count.toNat < 63 ∧ 2 ^ count.toNat = power := by
  rw [powTwo, Option.ite_none_right_eq_some, Option.some_inj]
  constructor
  · rintro ⟨hlt, hpower⟩
    have hcount : (count % 2 ^ 32).toNat = count.toNat := by omega
    rw [hcount] at hlt hpower
    exact ⟨by omega, hlt, hpower⟩
  · rintro ⟨hcount, hlt, hpower⟩
    have hcount : (count % 2 ^ 32).toNat = count.toNat := by omega
    rw [hcount]
    exact ⟨hlt, hpower⟩

theorem addUtc_eq_some {now duration next : Int} :
    addUtc now duration = some next ↔ (minUtc ≤ now + duration ∧ now + duration ≤ maxUtc) ∧ now + duration = next := by
  rw [addUtc, Option.ite_none_right_eq_some, Option.some_inj]

variable {config : EmailWorkerConfig} {delays : RetryDelays} {s : EmailRun} {id : Uuid} {row email : EmailOutbox}
  {error : String} {now : Int}

theorem calculateBackoff_eq_some {count : Int} (hlow : -2 ^ 31 ≤ count) (hhigh : count < 2 ^ 31)
    (hbase : 0 < delays.retryBaseDelaySecs.toInt) {random : Int64} {next : Int} :
    calculateBackoff count delays.retryBaseDelaySecs delays.retryMaxDelaySecs random now = some next ↔
      (0 ≤ count ∧ delays.retryBaseDelaySecs.toInt * 2 ^ count.toNat < 2 ^ 63) ∧
        ∃ moved, jittered (exactDelay delays count) random = some moved ∧
          (-9223372036854775 ≤ moved ∧ moved ≤ 9223372036854775) ∧
          (minUtc ≤ now + moved * second ∧ now + moved * second ≤ maxUtc) ∧ now + moved * second = next := by
  simp only [calculateBackoff, Option.bind_eq_some_iff, powTwo_count hlow hhigh, checked_eq_some, durationSeconds,
    Option.ite_none_right_eq_some, Option.some_inj, addUtc_eq_some]
  constructor
  · rintro ⟨_, ⟨hcount, -, rfl⟩, _, ⟨⟨-, hfits⟩, rfl⟩, moved, hmoved, _, ⟨hrange, rfl⟩, hutc, hnext⟩
    exact ⟨⟨hcount, hfits⟩, moved, hmoved, hrange, hutc, hnext⟩
  · rintro ⟨⟨hcount, hfits⟩, moved, hmoved, hrange, hutc, hnext⟩
    have hpow : (0 : Int) < 2 ^ count.toNat := Int.pow_pos (by omega)
    have hproduct : 0 < delays.retryBaseDelaySecs.toInt * 2 ^ count.toNat := Int.mul_pos hbase hpow
    have hlt : count.toNat < 63 := by
      by_contra hge
      have hle : (2 : Int) ^ 63 ≤ 2 ^ count.toNat := pow_le_pow_right₀ (by omega) (by omega)
      have hmul : 1 * 2 ^ count.toNat ≤ delays.retryBaseDelaySecs.toInt * 2 ^ count.toNat :=
        Int.mul_le_mul_of_nonneg_right hbase hpow.le
      omega
    exact ⟨_, ⟨hcount, hlt, rfl⟩, _, ⟨⟨by omega, hfits⟩, rfl⟩, moved, hmoved, _, ⟨hrange, rfl⟩, hutc, hnext⟩

theorem exactDelay_pos (hbase : 0 < delays.retryBaseDelaySecs.toInt) (hmax : 0 < delays.retryMaxDelaySecs.toInt)
    (count : Int) : 0 < exactDelay delays count :=
  lt_min (Int.mul_pos hbase (Int.pow_pos (by omega))) hmax

theorem lookup_handleDeliveryError (hrow : s.outbox.lookup id = some row)
    (hadmitted : email.attemptCount < email.limit config) (next : Int) :
    (s.handleDeliveryError config id email error (some next)).outbox.lookup id =
      some (row.scheduleRetry (classifyError error) error next) := by
  unfold EmailRun.handleDeliveryError
  simp only [if_pos hadmitted, EmailRun.update, Assoc.lookup_modify, if_pos, hrow, Option.map_some]

theorem calculateBackoff_of_le {count : Int} (hlow : -2 ^ 31 ≤ count) (hhigh : count < 2 ^ 31)
    (hbase : 0 < delays.retryBaseDelaySecs.toInt) (hmin : minUtc ≤ now) (hcount : 0 ≤ count)
    (hfits : delays.retryBaseDelaySecs.toInt * 2 ^ count.toNat < 2 ^ 63) (hten : 10 ≤ exactDelay delays count)
    (hutc : now + (exactDelay delays count + exactDelay delays count / 10 - 1) * second ≤ maxUtc) (random : Int64) :
    ∃ delay, 10 * |delay - exactDelay delays count| ≤ exactDelay delays count ∧
      calculateBackoff count delays.retryBaseDelaySecs delays.retryMaxDelaySecs random now =
        some (now + delay * second) := by
  rw [second, maxUtc, second] at hutc
  rw [minUtc, second] at hmin
  have hlt : exactDelay delays count < 2 ^ 45 := by omega
  have hmoved := jittered_of_lt hten hlt random
  have hdrawn := Int.emod_nonneg random.toInt (b := exactDelay delays count / 10 * 2) (by omega)
  have hdrawn' := Int.emod_lt_of_pos random.toInt (b := exactDelay delays count / 10 * 2) (by omega)
  refine ⟨_, ?_, (calculateBackoff_eq_some hlow hhigh hbase).2 ⟨⟨hcount, hfits⟩, _, hmoved, ?_, ?_, rfl⟩⟩
  · have hclose : |exactDelay delays count + random.toInt % (exactDelay delays count / 10 * 2) -
        exactDelay delays count / 10 - exactDelay delays count| ≤ exactDelay delays count / 10 :=
      abs_le.2 ⟨by omega, by omega⟩
    omega
  · omega
  · rw [minUtc, maxUtc, second]
    omega

theorem le_maxUtc_of_calculateBackoff {delay : Int} (hten : 10 ≤ delay) (hmin : minUtc ≤ now)
    (h : ∀ random, ∃ moved, jittered delay random = some moved ∧ now + moved * second ≤ maxUtc) :
    now + (delay + delay / 10 - 1) * second ≤ maxUtc := by
  rcases lt_or_ge delay (2 ^ 45) with hlt | hge
  · obtain ⟨random, hrandom⟩ := exists_int64 (n := delay / 10 * 2 - 1) (by omega) (by omega)
    obtain ⟨moved, hmoved, hutc⟩ := h random
    rw [jittered_of_lt hten hlt, hrandom, Int.emod_eq_of_lt (by omega) (by omega), Option.some_inj] at hmoved
    have hlongest : delay + delay / 10 - 1 = moved := by omega
    rwa [hlongest]
  · obtain ⟨random, hrandom⟩ := exists_jittered_ge delay
    obtain ⟨moved, hmoved, hutc⟩ := h random
    have hle := hrandom moved hmoved
    rw [maxUtc, second] at hutc
    rw [minUtc, second] at hmin
    omega

/-- The next attempt is scheduled, at most a tenth off, exactly if the count is not negative, the product fits, the delay
is at least ten seconds and the longest delay does not lead out of the calendar. -/
theorem retries_iff (hrow : s.outbox.lookup id = some row) (hadmitted : email.attemptCount < email.limit config)
    (hlow : -2 ^ 31 ≤ email.attemptCount) (hhigh : email.attemptCount < 2 ^ 31)
    (hbase : 0 < delays.retryBaseDelaySecs.toInt) (hmax : 0 < delays.retryMaxDelaySecs.toInt)
    (hnow : minUtc ≤ now ∧ now ≤ maxUtc) :
    Retries config delays s id row email error now ↔
      0 ≤ email.attemptCount ∧ delays.retryBaseDelaySecs.toInt * 2 ^ email.attemptCount.toNat < 2 ^ 63 ∧
        10 ≤ exactDelay delays email.attemptCount ∧
        now + (exactDelay delays email.attemptCount + exactDelay delays email.attemptCount / 10 - 1) * second ≤ maxUtc := by
  constructor
  · intro h
    have hdraw (random : Int64) : (0 ≤ email.attemptCount ∧
        delays.retryBaseDelaySecs.toInt * 2 ^ email.attemptCount.toNat < 2 ^ 63) ∧
          ∃ moved, jittered (exactDelay delays email.attemptCount) random = some moved ∧ now + moved * second ≤ maxUtc := by
      obtain ⟨delay, -, hnext, -⟩ := h random
      obtain ⟨hcount, moved, hmoved, -, ⟨-, hutc⟩, -⟩ := (calculateBackoff_eq_some hlow hhigh hbase).1 hnext
      exact ⟨hcount, moved, hmoved, hutc⟩
    obtain ⟨⟨hcount, hfits⟩, moved, hmoved, -⟩ := hdraw 0
    have hpos := exactDelay_pos hbase hmax email.attemptCount
    have hten : 10 ≤ exactDelay delays email.attemptCount := by
      by_contra hlt
      rw [jittered_of_small hpos.le (by omega)] at hmoved
      cases hmoved
    exact ⟨hcount, hfits, hten, le_maxUtc_of_calculateBackoff hten hnow.1 fun random => (hdraw random).2⟩
  · rintro ⟨hcount, hfits, hten, hutc⟩ random
    obtain ⟨delay, hclose, hnext⟩ := calculateBackoff_of_le hlow hhigh hbase hnow.1 hcount hfits hten hutc random
    refine ⟨delay, hclose, hnext, ?_⟩
    rw [hnext]
    exact lookup_handleDeliveryError hrow hadmitted _

/-- A row whose first attempt is running, and the table that has nothing else. -/
def sendingEmail : EmailOutbox :=
  ⟨"ann@a.b", "Hello", none, none, .sending, .normal, none, none, 0, 3, none, none, none, none, 0⟩

def sendingRun : EmailRun := ⟨(∅ : Assoc Uuid EmailOutbox).insert 7 sendingEmail, [], [], []⟩

/-- The delays of the default configuration. -/
def defaultDelays : RetryDelays := ⟨60, 3600⟩

theorem minute_retried : Retries ⟨100, 3⟩ defaultDelays sendingRun 7 sendingEmail sendingEmail "timeout" 0 :=
  (retries_iff (AList.lookup_insert _) (by decide) (by decide) (by decide) (by decide) (by decide) (by decide)).2
    (by decide)

/-- With a base delay of five seconds there is no next attempt. -/
theorem five_seconds_not_retried : sendingEmail.attemptCount < sendingEmail.limit ⟨100, 3⟩ ∧
    ¬ Retries ⟨100, 3⟩ ⟨5, 3600⟩ sendingRun 7 sendingEmail sendingEmail "timeout" 0 := by
  refine ⟨by decide, fun h => ?_⟩
  obtain ⟨delay, -, hnext, -⟩ := h 0
  have hnone : calculateBackoff 0 5 3600 0 0 = none := by decide
  cases hnone.symm.trans hnext

end EmailBackoff
end Rustchat
