import Mathlib.Algebra.BigOperators.Group.List.Basic
import Mathlib.Data.List.Basic

/-!
# Slices by position

Texts as sequences of units that are cut, searched and split by position, as the strings of JavaScript are: positions
are integers, `substring` takes its two in either order and moves them into the text, a search that finds nothing
answers -1.
-/

namespace Slice

variable {α : Type*}

def substring (s : List α) (i j : ℤ) : List α := (s.take (max i.toNat j.toNat)).drop (min i.toNat j.toNat)

def substringFrom (s : List α) (i : ℤ) : List α := s.drop i.toNat

section Search

variable [DecidableEq α]

/-- The last position at which `part` begins. -/
def lastIndexOf (part : List α) : List α → ℤ
  | [] => if part = [] then 0 else -1
  | c :: s =>
    if 0 ≤ lastIndexOf part s then lastIndexOf part s + 1 else if part.isPrefixOf (c :: s) then 0 else -1

/-- The first position at which `part` begins. -/
def indexOf (part : List α) : List α → ℤ
  | [] => if part = [] then 0 else -1
  | c :: s =>
    if part.isPrefixOf (c :: s) then 0 else if 0 ≤ indexOf part s then indexOf part s + 1 else -1

def includes (part s : List α) : Bool := decide (0 ≤ indexOf part s)

end Search

variable {a b c s : List α}

theorem substring_of_le {i j : ℕ} (h : i ≤ j) : substring s i j = (s.take j).drop i := by
  simp [substring, h]

theorem substring_left : substring (a ++ b) 0 a.length = a := by
  simp [substring]

theorem substring_mid : substring (a ++ b ++ c) a.length (a.length + b.length) = b := by
  have h : ((a.length : ℤ) + b.length) = ((a.length + b.length : ℕ) : ℤ) := by omega
  rw [h, substring_of_le (by omega), List.append_assoc, List.take_length_add_append, List.drop_left, List.take_left]

theorem substringFrom_right : substringFrom (a ++ b) a.length = b := by
  simp [substringFrom]

theorem substring_before (n : ℕ) : substring (a ++ b) (max 0 (a.length - n)) a.length = a.drop (a.length - n) := by
  have h : (max 0 ((a.length : ℤ) - n)) = ((a.length - n : ℕ) : ℤ) := by omega
  rw [h, substring_of_le (by omega), List.take_left]

theorem substring_after (n : ℕ) : substring (a ++ b) a.length (min (a ++ b).length (a.length + n)) = b.take n := by
  have h : min ((a ++ b).length : ℤ) (a.length + n) = ((a.length + min b.length n : ℕ) : ℤ) := by
    rw [List.length_append]
    omega
  rw [h, substring_of_le (by omega), List.take_length_add_append, List.drop_left, List.take_eq_take_iff]
  omega

/-! ### Searches -/

section Search

variable [DecidableEq α] {part : List α}

theorem prefix_of_lastIndexOf {i : ℕ} (h : lastIndexOf part s = i) : part <+: s.drop i := by
  induction s generalizing i with
  | nil =>
    rw [lastIndexOf] at h
    split at h
    · rename_i hpart
      rw [hpart]
      exact List.nil_prefix
    · omega
  | cons c s ih =>
    rw [lastIndexOf] at h
    split at h
    · rename_i hfound
      obtain ⟨k, rfl⟩ : ∃ k, i = k + 1 := ⟨i - 1, by omega⟩
      exact ih (by omega)
    · split at h
      · rename_i hpart
        obtain rfl : i = 0 := by omega
        exact List.isPrefixOf_iff_prefix.1 hpart
      · omega

theorem infix_of_includes (h : includes part s) : part <:+: s := by
  induction s with
  | nil =>
    by_cases hpart : part = []
    · subst hpart
      exact List.nil_infix
    · simp [includes, indexOf, hpart] at h
  | cons c s ih =>
    by_cases hpart : part.isPrefixOf (c :: s)
    · exact (List.isPrefixOf_iff_prefix.1 hpart).isInfix
    · have htail : includes part s := by
        rw [includes, decide_eq_true_eq, indexOf, if_neg hpart] at h
        rw [includes, decide_eq_true_eq]
        by_contra hnot
        rw [if_neg hnot] at h
        omega
      exact (ih htail).trans (List.suffix_cons c s).isInfix

theorem lastIndexOf_singleton_of_notMem {x : α} (h : x ∉ s) : lastIndexOf [x] s = -1 := by
  induction s with
  | nil => rfl
  | cons c s ih =>
    rw [List.mem_cons, not_or] at h
    rw [lastIndexOf, ih h.2, if_neg (by omega), if_neg]
    simpa using h.1

theorem lastIndexOf_singleton_append {x : α} (h : x ∉ b) : lastIndexOf [x] (a ++ x :: b) = a.length := by
  induction a with
  | nil =>
    rw [List.nil_append, lastIndexOf, lastIndexOf_singleton_of_notMem h]
    simp
  | cons c a ih =>
    rw [List.cons_append, lastIndexOf, ih]
    simp

end Search

/-! ### Lines -/

variable {x : α}

theorem length_intercalate_map_append (p : List α) (lines : List (List α)) :
    ([x].intercalate (lines.map (p ++ ·))).length = ([x].intercalate lines).length + p.length * lines.length := by
  induction lines with
  | nil => simp
  | cons line lines ih =>
    cases lines with
    | nil => simp [Nat.add_comm]
    | cons line' lines =>
      simp only [List.map_cons, List.intercalate_cons_cons, List.length_append, List.length_cons, List.length_nil,
        Nat.mul_succ] at ih ⊢
      omega

theorem intercalate_cons_append (p line : List α) (lines : List (List α)) :
    [x].intercalate ((p ++ line) :: lines) = p ++ [x].intercalate (line :: lines) := by
  cases lines <;> simp [List.intercalate_cons_cons]

section Lines

variable [DecidableEq α]

theorem notMem_of_mem_splitOn {line : List α} (h : line ∈ s.splitOn x) : x ∉ line := by
  induction s generalizing line with
  | nil =>
    rw [List.splitOn_nil, List.mem_singleton] at h
    simp [h]
  | cons c s ih =>
    rw [List.splitOn_cons_eq_if_modifyHead] at h
    obtain ⟨l, ls, hls⟩ := List.exists_cons_of_ne_nil (List.splitOn_ne_nil x s)
    rw [hls] at h ih
    split at h
    · rcases List.mem_cons.1 h with rfl | h
      · exact List.not_mem_nil
      · exact ih h
    · rename_i hc
      rcases List.mem_cons.1 h with rfl | h
      · rw [List.mem_cons, not_or]
        exact ⟨fun hx => hc (by simp [hx]), ih List.mem_cons_self⟩
      · exact ih (List.mem_cons_of_mem _ h)

theorem splitOn_append_of_notMem (h : x ∉ a) :
    (a ++ s).splitOn x = (s.splitOn x).modifyHead (a ++ ·) := by
  induction a with
  | nil => cases hs : s.splitOn x <;> simp [hs]
  | cons c a ih =>
    rw [List.mem_cons, not_or] at h
    rw [List.cons_append, List.splitOn_cons_eq_if_modifyHead, if_neg (by simpa using Ne.symm h.1), ih h.2]
    cases s.splitOn x <;> rfl

end Lines

end Slice
