import Mathlib.Data.Int.Init
import Mathlib.Data.List.Basic
import Mathlib.Order.Bounds.Basic
import Rustchat.EmailWorker

/-!
# Quiet hours (`services/email_service.rs`)

An email for a user in their quiet hours waits until these are over. `calculate_send_after` counts whole minutes from
now: for a range over midnight from the current minute to the end of the range, for a range within a day to its end on
the next day. It takes the times for UTC and never reads the time zone that stands beside them.
`QuietHours.delaysRight_iff` says when the email waits until the first instant outside. Instants are nanoseconds since
the epoch.
-/

namespace Rustchat

namespace QuietHours

/-- A nanosecond count for a minute, an hour and a day. -/
def minute : Int := 60000000000

def hour : Int := 3600000000000

def day : Int := 86400000000000

structure QuietHoursConfig where
  enabled : Bool
  start : String
  «end» : String
  timezone : String

structure UserNotificationPrefs where
  quietHoursJson : Option QuietHoursConfig

structure WorkflowPolicy where
  respectQuietHours : Option Bool

def digitsValue (digits : List Char) : Int :=
  digits.foldl (fun n c => 10 * n + (c.toNat - '0'.toNat : ℕ)) 0

/-- `str::parse::<i32>`: a sign or none, and decimal digits. -/
def parseI32 (text : List Char) : Option Int :=
  let number (digits : List Char) : Option Int :=
    if digits ≠ [] ∧ digits.all Char.isDigit then some (digitsValue digits) else none
  let value := match text with
    | '+' :: digits => number digits
    | '-' :: digits => (number digits).map fun n => -n
    | digits => number digits
  value.filter fun n => decide (-2 ^ 31 ≤ n ∧ n < 2 ^ 31)

def timeParts (text : String) : List Int := (text.toList.splitOn ':').filterMap parseI32

/-- The minute of the day, from the hour and the minute of the time. -/
def currentMinutes (now : Int) : Int := now % day / hour * 60 + now % hour / minute

def inQuietHours (startMinutes endMinutes currentMinutes : Int) : Bool :=
  if startMinutes < endMinutes then decide (startMinutes ≤ currentMinutes ∧ currentMinutes < endMinutes)
  else decide (startMinutes ≤ currentMinutes ∨ currentMinutes < endMinutes)

def minutesUntilEnd (startMinutes endMinutes currentMinutes : Int) : Int :=
  if startMinutes ≤ currentMinutes then (24 * 60 - currentMinutes) + endMinutes
  else endMinutes - currentMinutes

/-- The arithmetic is exact: it is about hours and minutes of a day. -/
def calculateSendAfter (policy : WorkflowPolicy) (prefs : Option UserNotificationPrefs) (now : Int) : Option Int :=
  if policy.respectQuietHours.getD true then
    let quietHours := (prefs.bind UserNotificationPrefs.quietHoursJson).getD ⟨false, "", "", ""⟩
    if quietHours.enabled then
      match timeParts quietHours.start, timeParts quietHours.end with
      | [startHour, startMinute], [endHour, endMinute] =>
        let startMinutes := startHour * 60 + startMinute
        let endMinutes := endHour * 60 + endMinute
        if inQuietHours startMinutes endMinutes (currentMinutes now) then
          some (now + minutesUntilEnd startMinutes endMinutes (currentMinutes now) * minute)
        else none
      | _, _ => none
    else none
  else none

/-- The minutes of the day at which the quiet hours of a user begin and end, where they apply. -/
def quietRange (policy : WorkflowPolicy) (prefs : Option UserNotificationPrefs) : Option (Int × Int) :=
  if policy.respectQuietHours.getD true then
    let quietHours := (prefs.bind UserNotificationPrefs.quietHoursJson).getD ⟨false, "", "", ""⟩
    if quietHours.enabled then
      match timeParts quietHours.start, timeParts quietHours.end with
      | [startHour, startMinute], [endHour, endMinute] =>
        some (startHour * 60 + startMinute, endHour * 60 + endMinute)
      | _, _ => none
    else none
  else none

def IsTimeOfDay (minutes : Int) : Prop := 0 ≤ minutes ∧ minutes < 24 * 60

/-- The minute of the day on a clock that is `offset` minutes ahead of UTC, which may change from minute to minute. -/
def clockMinutes (offset : Int → Int) (t : Int) : Int := (t / minute + offset (t / minute)) % (24 * 60)

/-- The instants at which a clock shows a time in the range. -/
def quietTimes (offset : Int → Int) (range : Int × Int) : Set Int :=
  {t | inQuietHours range.1 range.2 (clockMinutes offset t) = true}

instance (offset : Int → Int) (range : Int × Int) (t : Int) : Decidable (t ∈ quietTimes offset range) :=
  inferInstanceAs (Decidable (_ = true))

/-- The first instant after now outside a period. -/
def EndsAt (times : Set Int) (now t : Int) : Prop := IsLeast {t | now < t ∧ t ∉ times} t

/-- The time zone of the user. -/
def timezone (prefs : Option UserNotificationPrefs) : String :=
  ((prefs.bind UserNotificationPrefs.quietHoursJson).getD ⟨false, "", "", ""⟩).timezone

/-- How many minutes the clocks of each zone are ahead of UTC, for each minute since the epoch. No zone's clocks show
other seconds than UTC. -/
abbrev Zones : Type := String → Int → Int

/-- In the quiet period of the user an email waits for the first instant at which it is over, and at no other time. -/
structure DelaysRight (zones : Zones) (policy : WorkflowPolicy) (prefs : Option UserNotificationPrefs) (now : Int) : Prop where
  quiet : ∀ range ∈ quietRange policy prefs, now ∈ quietTimes (zones (timezone prefs)) range →
    ∃ sendAfter, calculateSendAfter policy prefs now = some sendAfter ∧
      EndsAt (quietTimes (zones (timezone prefs)) range) now sendAfter ∧ sendAfter ≤ now + day
  other : (∀ range ∈ quietRange policy prefs, now ∉ quietTimes (zones (timezone prefs)) range) →
    calculateSendAfter policy prefs now = none

/-- Now is in the quiet period on the clock of the user exactly if it is on the one of UTC, and if so the range goes over
midnight, a minute begins right now, and both clocks come to the end of the period at the same instant. -/
structure Agrees (offset : Int → Int) (range : Int × Int) (now : Int) : Prop where
  now_iff : now ∈ quietTimes offset range ↔ now ∈ quietTimes 0 range
  wrapped : now ∈ quietTimes 0 range → range.2 < range.1
  whole : now ∈ quietTimes 0 range → minute ∣ now
  ends : now ∈ quietTimes 0 range → ∃ t, EndsAt (quietTimes offset range) now t ∧ EndsAt (quietTimes 0 range) now t

theorem currentMinutes_eq (now : Int) : currentMinutes now = now / minute % (24 * 60) := by
  unfold currentMinutes day hour minute
  omega

theorem clockMinutes_zero (t : Int) : clockMinutes 0 t = currentMinutes t := by
  rw [currentMinutes_eq, clockMinutes, Pi.zero_apply, Int.add_zero]

theorem calculateSendAfter_eq (policy : WorkflowPolicy) (prefs : Option UserNotificationPrefs) (now : Int) :
    calculateSendAfter policy prefs now = (quietRange policy prefs).bind fun range =>
      if inQuietHours range.1 range.2 (currentMinutes now) then
        some (now + minutesUntilEnd range.1 range.2 (currentMinutes now) * minute)
      else none := by
  unfold calculateSendAfter quietRange
  split
  · dsimp only
    split
    · split <;> rfl
    · rfl
  · rfl

theorem inQuietHours_wrapped {start stop current : Int} (h : stop < start) :
    inQuietHours start stop current = true ↔ start ≤ current ∨ current < stop := by
  rw [inQuietHours, if_neg (by omega), decide_eq_true_iff]

section Range
variable {range : Int × Int} {offset : Int → Int} {now : Int}

theorem mem_quietTimes_zero : now ∈ quietTimes 0 range ↔ inQuietHours range.1 range.2 (currentMinutes now) = true := by
  rw [← clockMinutes_zero]
  exact Iff.rfl

theorem endsAt_wrapped (hstart : IsTimeOfDay range.1) (hstop : IsTimeOfDay range.2) (h : range.2 < range.1)
    (hquiet : now ∈ quietTimes 0 range) (hnow : minute ∣ now) :
    EndsAt (quietTimes 0 range) now (now + minutesUntilEnd range.1 range.2 (currentMinutes now) * minute) ∧
    now + minutesUntilEnd range.1 range.2 (currentMinutes now) * minute ≤ now + day := by
  unfold EndsAt
  simp only [mem_quietTimes_zero, inQuietHours_wrapped h, currentMinutes_eq, IsTimeOfDay, minute, day, minutesUntilEnd] at *
  refine ⟨⟨⟨?_, ?_⟩, fun t ht => ?_⟩, ?_⟩
  · split <;> omega
  · split <;> omega
  · obtain ⟨hlt, ht⟩ := ht
    split <;> omega
  · split <;> omega

/-- A range within a day ends less than a day later, but the email waits for longer than a day. -/
theorem day_lt_of_inDay (h : range.1 < range.2) (hquiet : now ∈ quietTimes 0 range) :
    now + day < now + minutesUntilEnd range.1 range.2 (currentMinutes now) * minute := by
  rw [mem_quietTimes_zero, inQuietHours, if_pos h, decide_eq_true_iff] at hquiet
  rw [minutesUntilEnd, if_pos hquiet.1]
  unfold day minute
  omega

theorem not_endsAt_same (h : range.1 = range.2) (t : Int) : ¬ EndsAt (quietTimes offset range) now t := by
  intro hend
  refine hend.1.2 ?_
  show inQuietHours range.1 range.2 _ = true
  rw [inQuietHours, if_neg (by omega), decide_eq_true_iff, h]
  exact le_or_gt ..

theorem not_endsAt_of_seconds {minutes : Int} (hpos : 0 < minutes) (hnow : ¬ minute ∣ now) :
    ¬ EndsAt (quietTimes offset range) now (now + minutes * minute) := by
  intro hend
  have hsame : (now - now % minute + minutes * minute) / minute = (now + minutes * minute) / minute := by
    unfold minute
    omega
  have hout : now - now % minute + minutes * minute ∉ quietTimes offset range := by
    intro hin
    refine hend.1.2 ?_
    have hshown : inQuietHours range.1 range.2 (clockMinutes offset _) = true := hin
    rwa [clockMinutes, hsame] at hshown
  have hle := hend.2 ⟨by unfold minute at *; omega, hout⟩
  unfold minute at *
  omega

theorem minutesUntilEnd_pos (hstop : IsTimeOfDay range.2) (h : range.2 < range.1)
    (hquiet : now ∈ quietTimes 0 range) : 0 < minutesUntilEnd range.1 range.2 (currentMinutes now) := by
  rw [mem_quietTimes_zero, inQuietHours_wrapped h] at hquiet
  have hcurrent := currentMinutes_eq now
  unfold minutesUntilEnd
  unfold IsTimeOfDay at *
  split <;> omega

theorem mem_quietTimes_fixed {ahead t : Int} :
    t ∈ quietTimes (fun _ => ahead) range ↔ t + ahead * minute ∈ quietTimes 0 range := by
  have hshift : (t + ahead * minute) / minute = t / minute + ahead := by
    unfold minute
    omega
  rw [mem_quietTimes_zero, currentMinutes_eq, hshift]
  exact Iff.rfl

theorem endsAt_fixed {ahead t : Int} (h : EndsAt (quietTimes 0 range) (now + ahead * minute) (t + ahead * minute)) :
    EndsAt (quietTimes (fun _ => ahead) range) now t := by
  refine ⟨⟨by have := h.1.1; omega, mt mem_quietTimes_fixed.1 h.1.2⟩, fun u hu => ?_⟩
  have hle := h.2 ⟨Int.add_lt_add_right hu.1 (ahead * minute), mt mem_quietTimes_fixed.2 hu.2⟩
  omega

/-- On a clock that keeps its distance from UTC the period ends when it does on UTC's only if it shows the same time. -/
theorem endsTogether_iff (hstart : IsTimeOfDay range.1) (hstop : IsTimeOfDay range.2) (h : range.2 < range.1)
    {ahead : Int} (hquiet : now ∈ quietTimes (fun _ => ahead) range) (hutc : now ∈ quietTimes 0 range)
    (hnow : minute ∣ now) :
    (∃ t, EndsAt (quietTimes (fun _ => ahead) range) now t ∧ EndsAt (quietTimes 0 range) now t) ↔ 24 * 60 ∣ ahead := by
  have hshifted := mem_quietTimes_fixed.1 hquiet
  have hend := (endsAt_wrapped hstart hstop h hutc hnow).1
  have hwhole : minute ∣ now + ahead * minute := Int.dvd_add hnow (Int.dvd_mul_left ..)
  have hown := (endsAt_wrapped hstart hstop h hshifted hwhole).1
  rw [Int.add_right_comm] at hown
  have hown := endsAt_fixed hown
  -- the two ends are the same if the two clocks are as far from it
  have hsame : minutesUntilEnd range.1 range.2 (currentMinutes (now + ahead * minute)) =
      minutesUntilEnd range.1 range.2 (currentMinutes now) ↔ 24 * 60 ∣ ahead := by
    rw [mem_quietTimes_zero, inQuietHours_wrapped h, currentMinutes_eq] at hutc hshifted
    rw [currentMinutes_eq, currentMinutes_eq]
    unfold minutesUntilEnd IsTimeOfDay minute at *
    split <;> split <;> omega
  rw [← hsame]
  constructor
  · rintro ⟨t, ht, ht'⟩
    have heq := Int.add_left_cancel ((ht.unique hown).symm.trans (ht'.unique hend))
    exact Int.eq_of_mul_eq_mul_right (by decide) heq
  · intro heq
    exact ⟨_, heq ▸ hown, hend⟩

end Range

/-! ### The law -/

variable {zones : Zones} {policy : WorkflowPolicy} {prefs : Option UserNotificationPrefs} {now : Int}

/-- An email is delayed rightly exactly if the user has no quiet hours or the clock of the user agrees with the one of
UTC about a range that goes over midnight. -/
theorem delaysRight_iff (htimes : ∀ range ∈ quietRange policy prefs, IsTimeOfDay range.1 ∧ IsTimeOfDay range.2) :
    DelaysRight zones policy prefs now ↔
      ∀ range ∈ quietRange policy prefs, Agrees (zones (timezone prefs)) range now := by
  have hsend := calculateSendAfter_eq policy prefs now
  cases hrange : quietRange policy prefs with
  | none =>
    rw [hrange, Option.bind_none] at hsend
    refine iff_of_true ⟨fun range hr => ?_, fun _ => hsend⟩ nofun
    rw [hrange] at hr
    cases hr
  | some range =>
    obtain ⟨hstart, hstop⟩ := htimes range hrange
    rw [hrange, Option.bind_some] at hsend
    constructor
    · intro hright r hr
      obtain rfl : range = r := Option.some.inj hr
      have hquiet (hutc : now ∈ quietTimes 0 range) : now ∈ quietTimes (zones (timezone prefs)) range := by
        by_contra hquiet
        have hnone := hright.other fun r hr => by
          obtain rfl := Option.some.inj (hrange.symm.trans hr)
          exact hquiet
        rw [hsend, if_pos (mem_quietTimes_zero.1 hutc)] at hnone
        cases hnone
      have hends (hutc : now ∈ quietTimes 0 range) : EndsAt (quietTimes (zones (timezone prefs)) range) now
          (now + minutesUntilEnd range.1 range.2 (currentMinutes now) * minute) ∧
          now + minutesUntilEnd range.1 range.2 (currentMinutes now) * minute ≤ now + day := by
        obtain ⟨sendAfter, hcalc, hends⟩ := hright.quiet range hrange (hquiet hutc)
        rw [hsend, if_pos (mem_quietTimes_zero.1 hutc)] at hcalc
        rwa [Option.some.inj hcalc]
      have hwrapped (hutc : now ∈ quietTimes 0 range) : range.2 < range.1 := by
        rcases lt_trichotomy range.1 range.2 with hlt | heq | hgt
        · exact absurd (hends hutc).2 (not_le.2 (day_lt_of_inDay hlt hutc))
        · exact absurd (hends hutc).1 (not_endsAt_same heq _)
        · exact hgt
      have hwhole (hutc : now ∈ quietTimes 0 range) : minute ∣ now := by
        by_contra hnow
        exact not_endsAt_of_seconds (minutesUntilEnd_pos hstop (hwrapped hutc) hutc) hnow (hends hutc).1
      refine ⟨⟨fun hin => ?_, hquiet⟩, hwrapped, hwhole, fun hutc =>
        ⟨_, (hends hutc).1, (endsAt_wrapped hstart hstop (hwrapped hutc) hutc (hwhole hutc)).1⟩⟩
      obtain ⟨sendAfter, hcalc, -⟩ := hright.quiet range hrange hin
      rw [hsend] at hcalc
      split at hcalc
      · next hutc => exact mem_quietTimes_zero.2 hutc
      · cases hcalc
    · intro h
      have hagrees := h range rfl
      refine ⟨fun r hr hin => ?_, fun hother => ?_⟩
      · obtain rfl := Option.some.inj (hrange.symm.trans hr)
        have hutc := hagrees.now_iff.1 hin
        obtain ⟨hend, hday⟩ := endsAt_wrapped hstart hstop (hagrees.wrapped hutc) hutc (hagrees.whole hutc)
        obtain ⟨t, hown, ht⟩ := hagrees.ends hutc
        rw [ht.unique hend] at hown
        exact ⟨_, hsend.trans (if_pos (mem_quietTimes_zero.1 hutc)), hown, hday⟩
      · have hutc := mt hagrees.now_iff.2 (hother range hrange)
        rw [hsend, if_neg (mt mem_quietTimes_zero.2 hutc)]

/-! ### Configurations -/

/-- "HH:MM" -/
def clockText (time : Fin 24 × Fin 60) : String :=
  let digits (n : ℕ) : List Char := [(n / 10).digitChar, (n % 10).digitChar]
  String.ofList (digits time.1 ++ ':' :: digits time.2)

theorem parseI32_digits : ∀ n : ℕ, n < 60 → parseI32 [(n / 10).digitChar, (n % 10).digitChar] = some (n : Int) := by
  decide +kernel

theorem digitChar_ne : ∀ d < 10, Nat.digitChar d ≠ ':' := by decide

theorem timeParts_clockText (time : Fin 24 × Fin 60) :
    timeParts (clockText time) = [(time.1.val : Int), (time.2.val : Int)] := by
  have hhour := digitChar_ne (time.1.val / 10) (by omega)
  have hhour' := digitChar_ne (time.1.val % 10) (by omega)
  have hminute := digitChar_ne (time.2.val / 10) (by omega)
  have hminute' := digitChar_ne (time.2.val % 10) (by omega)
  have hsplit : (clockText time).toList.splitOn ':' = [[(time.1.val / 10).digitChar, (time.1.val % 10).digitChar],
      [(time.2.val / 10).digitChar, (time.2.val % 10).digitChar]] := by
    simp [clockText, List.splitOn, List.splitOnP_cons_eq_if_modifyHead, hhour, hhour', hminute, hminute']
  rw [timeParts, hsplit, List.filterMap_cons_some (parseI32_digits _ (by omega)),
    List.filterMap_cons_some (parseI32_digits _ time.2.2), List.filterMap_nil]

/-- A user with quiet hours, under a policy that respects them. -/
def quietUser (start stop : Fin 24 × Fin 60) : Option UserNotificationPrefs :=
  some ⟨some ⟨true, clockText start, clockText stop, "Europe/London"⟩⟩

theorem quietRange_quietUser (start stop : Fin 24 × Fin 60) : quietRange ⟨none⟩ (quietUser start stop) =
    some ((start.1.val : Int) * 60 + start.2.val, (stop.1.val : Int) * 60 + stop.2.val) := by
  simp [quietRange, quietUser, timeParts_clockText]

theorem isTimeOfDay_quietUser {start stop : Fin 24 × Fin 60} :
    ∀ range ∈ quietRange ⟨none⟩ (quietUser start stop), IsTimeOfDay range.1 ∧ IsTimeOfDay range.2 := by
  rw [quietRange_quietUser]
  rintro range ⟨⟩
  unfold IsTimeOfDay
  omega

/-- The clocks of London, an hour ahead until `01:00` of the second day. -/
def lastOctober : Zones := fun name n => if name = "Europe/London" ∧ n < 25 * 60 then 60 else 0

/-- At 23:00, from 22:00 to 08:00, in the night in which the clocks go back. -/
theorem night_delaysRight : DelaysRight lastOctober ⟨none⟩ (quietUser (22, 0) (8, 0)) (23 * hour) := by
  refine (delaysRight_iff isTimeOfDay_quietUser).2 ?_
  rw [quietRange_quietUser]
  rintro range ⟨⟩
  refine ⟨by decide, fun _ => by decide, fun _ => by decide, fun hutc => ⟨32 * hour, ⟨by decide, fun t ht => ?_⟩, ?_⟩⟩
  · obtain ⟨hlt, hout⟩ := ht
    by_contra hle
    refine hout ((inQuietHours_wrapped (by decide)).2 ?_)
    have hzone : lastOctober (timezone (quietUser (22, 0) (8, 0))) (t / minute) = if t / minute < 25 * 60 then 60 else 0 := by
      simp [lastOctober, timezone, quietUser]
    have hclock : clockMinutes (lastOctober (timezone (quietUser (22, 0) (8, 0)))) t =
        (t / minute + if t / minute < 25 * 60 then 60 else 0) % (24 * 60) := congrArg (fun n => (t / minute + n) % _) hzone
    rw [hclock]
    unfold minute hour at *
    dsimp only
    split <;> omega
  · exact (endsAt_wrapped ⟨by decide, by decide⟩ ⟨by decide, by decide⟩ (by decide) hutc (by decide)).1

/-- At 10:00, from 09:00 to 17:00 of UTC: the email waits until 17:00 of the next day. -/
theorem office_not_delaysRight : ¬ ∀ zones start stop now, DelaysRight zones ⟨none⟩ (quietUser start stop) now := by
  intro h
  have hright := h (fun _ _ => 0) (9, 0) (17, 0) (10 * hour)
  obtain ⟨sendAfter, hcalc, -, hday⟩ := hright.quiet _ (quietRange_quietUser (9, 0) (17, 0)) (by decide)
  rw [calculateSendAfter_eq, quietRange_quietUser] at hcalc
  have hsend : sendAfter = 41 * hour := (Option.some.inj hcalc).symm
  rw [hsend] at hday
  exact absurd hday (by decide)

end QuietHours

end Rustchat
