import Mathlib.Data.List.Induction
import Mathlib.Data.Nat.ModEq
import Mathlib.Tactic.Ring

/-!
# Regrouping a stream of digits

`Regroup.run w v ds` reads digits of `w` bits, most significant first, through a 32-bit register and
writes out digits of `v` bits as soon as the register holds that many. `run_spec` says what has been
written and what is left: the written digits are the value read so far without its lowest `bits`
bits, and the register still holds those. `ofDigits` is the value of a digit string, `toDigits` its
inverse at a fixed length.
-/

namespace Regroup

/-- The value of a digit string in base `B`, most significant digit first. -/
def ofDigits (B : Nat) (ds : List Nat) : Nat := ds.foldl (fun n d => n * B + d) 0

/-- The `k` lowest digits of `n` in base `B`, most significant first. -/
def toDigits (B : Nat) : Nat → Nat → List Nat
  | 0, _ => []
  | k + 1, n => toDigits B k (n / B) ++ [n % B]

theorem ofDigits_concat (B : Nat) (ds : List Nat) (d : Nat) :
    ofDigits B (ds ++ [d]) = ofDigits B ds * B + d := by
  simp [ofDigits]

@[simp] theorem length_toDigits (B k n : Nat) : (toDigits B k n).length = k := by
  induction k generalizing n with
  | zero => rfl
  | succ k ih => simp [toDigits, ih]

theorem lt_of_mem_toDigits {B : Nat} (hB : 0 < B) {k n d : Nat} (h : d ∈ toDigits B k n) : d < B := by
  induction k generalizing n with
  | zero => cases h
  | succ k ih =>
    rcases List.mem_append.1 h with h | h
    · exact ih h
    · rw [List.mem_singleton.1 h]; exact Nat.mod_lt _ hB

theorem ofDigits_toDigits (B k n : Nat) : ofDigits B (toDigits B k n) = n % B ^ k := by
  induction k generalizing n with
  | zero => simp [toDigits, ofDigits, Nat.mod_one]
  | succ k ih =>
    rw [toDigits, ofDigits_concat, ih, Nat.pow_succ', Nat.mod_mul]
    ring

theorem toDigits_ofDigits {B : Nat} {ds : List Nat} (h : ∀ d ∈ ds, d < B) :
    toDigits B ds.length (ofDigits B ds) = ds := by
  induction ds using List.reverseRecOn with
  | nil => rfl
  | append_singleton ds d ih =>
    have hd : d < B := h d (by simp)
    have hB : 0 < B := Nat.lt_of_le_of_lt (Nat.zero_le d) hd
    rw [List.length_append, List.length_singleton, toDigits, ofDigits_concat,
      Nat.mul_comm, Nat.mul_add_div hB, Nat.div_eq_of_lt hd, Nat.add_zero, Nat.mul_add_mod,
      Nat.mod_eq_of_lt hd, ih fun e he => h e (List.mem_append_left _ he)]

theorem eq_toDigits {B k n : Nat} {ds : List Nat} (hd : ∀ d ∈ ds, d < B) (hk : ds.length = k)
    (hn : ofDigits B ds = n) : ds = toDigits B k n := by
  rw [← hk, ← hn, toDigits_ofDigits hd]

structure Register where
  buffer : Nat
  bits : Nat
  digits : List Nat

/-- Shift a digit of `w` bits into the 32-bit register. -/
def Register.shift (w : Nat) (s : Register) (d : Nat) : Register :=
  { s with buffer := (s.buffer <<< w) % 2 ^ 32 ||| d, bits := s.bits + w }

/-- `while bits >= v`: write out the highest `v` bits. -/
def Register.drain (v : Nat) : Nat → Register → Register
  | 0, s => s
  | fuel + 1, s =>
    if v ≤ s.bits then
      Register.drain v fuel { s with
        digits := s.digits ++ [(s.buffer >>> (s.bits - v)) % 2 ^ v]
        bits := s.bits - v }
    else s

def Register.feed (w v : Nat) (s : Register) (d : Nat) : Register :=
  let s := s.shift w d
  s.drain v s.bits

def run (w v : Nat) (ds : List Nat) : Register := ds.foldl (Register.feed w v) ⟨0, 0, []⟩

/-- `n` was read, `total` bits of it in all. -/
structure Register.Holds (v n total : Nat) (s : Register) : Prop where
  bits_le : s.bits ≤ 32
  buffer : s.buffer % 2 ^ s.bits = n % 2 ^ s.bits
  value : ofDigits (2 ^ v) s.digits = n / 2 ^ s.bits
  digit_lt : ∀ d ∈ s.digits, d < 2 ^ v
  total : v * s.digits.length + s.bits = total

namespace Register.Holds

variable {v w n total d : Nat} {s : Register}

theorem shift (h : s.Holds v n total) (hd : d < 2 ^ w) (hw : s.bits + w ≤ 32) :
    (s.shift w d).Holds v (n * 2 ^ w + d) (total + w) := by
  have hdvd : 2 ^ w ∣ s.buffer * 2 ^ w % 2 ^ 32 :=
    (Nat.dvd_mod_iff (Nat.pow_dvd_pow 2 (by omega))).2 (Nat.dvd_mul_left _ _)
  have hor : (s.buffer <<< w) % 2 ^ 32 ||| d = s.buffer * 2 ^ w % 2 ^ 32 + d := by
    obtain ⟨q, hq⟩ := hdvd
    rw [Nat.shiftLeft_eq, hq, Nat.mul_comm, ← Nat.shiftLeft_eq, Nat.shiftLeft_add_eq_or_of_lt hd]
  refine ⟨hw, ?_, ?_, h.digit_lt, ?_⟩
  · show ((s.buffer <<< w) % 2 ^ 32 ||| d) % 2 ^ (s.bits + w) = (n * 2 ^ w + d) % 2 ^ (s.bits + w)
    rw [hor]
    have h1 : s.buffer * 2 ^ w % 2 ^ 32 ≡ s.buffer * 2 ^ w [MOD 2 ^ (s.bits + w)] :=
      (Nat.mod_modEq _ _).of_dvd (Nat.pow_dvd_pow 2 hw)
    have h2 : s.buffer * 2 ^ w ≡ n * 2 ^ w [MOD 2 ^ (s.bits + w)] := by
      rw [Nat.pow_add]; exact Nat.ModEq.mul_right' _ h.buffer
    exact (h1.trans h2).add_right d
  · show ofDigits (2 ^ v) s.digits = (n * 2 ^ w + d) / 2 ^ (s.bits + w)
    rw [h.value, Nat.add_comm s.bits, Nat.pow_add, ← Nat.div_div_eq_div_mul, Nat.mul_comm n,
      Nat.mul_add_div (Nat.two_pow_pos w), Nat.div_eq_of_lt hd, Nat.add_zero]
  · show v * s.digits.length + (s.bits + w) = total + w
    have := h.total; omega

theorem emit (h : s.Holds v n total) (hv : v ≤ s.bits) :
    Holds v n total { s with
      digits := s.digits ++ [(s.buffer >>> (s.bits - v)) % 2 ^ v]
      bits := s.bits - v } := by
  obtain ⟨b, hb⟩ := Nat.exists_eq_add_of_le hv
  have hbv : s.bits - v = b := by omega
  have hsplit : 2 ^ s.bits = 2 ^ b * 2 ^ v := by rw [hb, Nat.pow_add, Nat.mul_comm]
  have hbuf : s.buffer % (2 ^ b * 2 ^ v) = n % (2 ^ b * 2 ^ v) := by rw [← hsplit]; exact h.buffer
  have hdig : s.buffer / 2 ^ b % 2 ^ v = n / 2 ^ b % 2 ^ v := by
    rw [← Nat.mod_mul_right_div_self, ← Nat.mod_mul_right_div_self, hbuf]
  refine ⟨?_, ?_, ?_, ?_, ?_⟩
  · exact Nat.le_trans (Nat.sub_le _ _) h.bits_le
  · show s.buffer % 2 ^ (s.bits - v) = n % 2 ^ (s.bits - v)
    rw [hbv, ← Nat.mod_mul_right_mod s.buffer (2 ^ b) (2 ^ v), hbuf, Nat.mod_mul_right_mod]
  · show ofDigits _ (s.digits ++ [_]) = n / 2 ^ (s.bits - v)
    rw [ofDigits_concat, h.value, hbv, Nat.shiftRight_eq_div_pow, hdig, hsplit,
      ← Nat.div_div_eq_div_mul, Nat.mul_comm]
    exact Nat.div_add_mod _ _
  · intro e he
    rcases List.mem_append.1 he with he | he
    · exact h.digit_lt e he
    · rw [List.mem_singleton.1 he]; exact Nat.mod_lt _ (Nat.two_pow_pos v)
  · show v * (s.digits ++ [_]).length + (s.bits - v) = total
    have := h.total
    rw [List.length_append, List.length_singleton, Nat.mul_add, Nat.mul_one]; omega

theorem drain (h : s.Holds v n total) (hv : 0 < v) (fuel : Nat) (hf : s.bits ≤ fuel) :
    (s.drain v fuel).Holds v n total ∧ (s.drain v fuel).bits < v := by
  induction fuel generalizing s with
  | zero => exact ⟨h, by show s.bits < v; omega⟩
  | succ fuel ih =>
    unfold Register.drain
    split
    · next hle => exact ih (h.emit hle) (by show s.bits - v ≤ fuel; omega)
    · next hlt => exact ⟨h, by omega⟩

theorem feed (h : s.Holds v n total) (hb : s.bits < v) (hv : 0 < v) (hd : d < 2 ^ w) (hw : v + w ≤ 32) :
    (s.feed w v d).Holds v (n * 2 ^ w + d) (total + w) ∧ (s.feed w v d).bits < v :=
  (h.shift hd (by omega)).drain hv _ (Nat.le_refl _)

end Register.Holds

theorem run_spec {w v : Nat} (hv : 0 < v) (hw : v + w ≤ 32) {ds : List Nat} (hd : ∀ d ∈ ds, d < 2 ^ w) :
    (run w v ds).Holds v (ofDigits (2 ^ w) ds) (w * ds.length) ∧ (run w v ds).bits < v := by
  induction ds using List.reverseRecOn with
  | nil => exact ⟨⟨by simp [run], rfl, by simp [run, ofDigits], by simp [run], by simp [run]⟩, hv⟩
  | append_singleton ds d ih =>
    obtain ⟨h, hb⟩ := ih fun e he => hd e (List.mem_append_left _ he)
    have hf := h.feed hb hv (hd d (by simp)) hw
    rw [ofDigits_concat, List.length_append, List.length_singleton, Nat.mul_add, Nat.mul_one]
    simpa only [run, List.foldl_append, List.foldl_cons, List.foldl_nil] using hf

end Regroup
