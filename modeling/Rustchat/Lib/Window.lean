import Mathlib.Data.List.DropRight
import Mathlib.Data.List.Infix
import Mathlib.Tactic.Ring

/-!
# Bounded windows over a numbered log

`push cap buf x` is the ring-buffer append: drop the oldest entry when `buf` is full, then append.
Fed one by one, it holds the last `cap` entries of everything pushed (`push_rtake`). `number` numbers
a log from `1`; what a reader who has seen the numbers up to `r` still finds in the window is a drop
of the numbered log (`filter_rtake_number`). `covers_iff` says when a log that loses entries still has
all the wanted ones.
-/

namespace Window

variable {α : Type*}

/-- Append `x` to a window of capacity `cap`, evicting the oldest entry when it is full. -/
def push (cap : Nat) (buf : List α) (x : α) : List α :=
  (if cap ≤ buf.length then buf.tail else buf) ++ [x]

theorem mem_push {cap : Nat} {buf : List α} {x y : α} (h : y ∈ push cap buf x) : y ∈ buf ∨ y = x := by
  unfold push at h
  rcases List.mem_append.1 h with h | h
  · split at h
    · exact .inl (List.mem_of_mem_tail h)
    · exact .inl h
  · exact .inr (List.mem_singleton.1 h)

theorem push_push {cap : Nat} (hc : 1 < cap) (buf : List α) (x y : α) :
    ∃ pre, push cap (push cap buf x) y = pre ++ [x, y] := by
  obtain ⟨pre, hpre⟩ : ∃ pre, push cap buf x = pre ++ [x] := ⟨_, rfl⟩
  rw [hpre, push]
  split
  · next hfull =>
    rw [List.length_append, List.length_singleton] at hfull
    obtain ⟨z, zs, rfl⟩ := List.exists_cons_of_length_pos (l := pre) (by omega)
    exact ⟨zs, by simp⟩
  · exact ⟨pre, by simp⟩

/-- What is left after dropping entries still covers `W` exactly if nothing of `W` was dropped. -/
theorem covers_iff {l₁ dropped l₂ W : List α} (hn : (l₁ ++ dropped ++ l₂).Nodup)
    (h : ∀ n ∈ W, n ∈ l₁ ++ dropped ++ l₂) : (∀ n ∈ W, n ∈ l₁ ++ l₂) ↔ ∀ n ∈ dropped, n ∉ W := by
  constructor
  · intro hW n hd hw
    rcases List.mem_append.1 (hW n hw) with h1 | h2
    · exact (List.nodup_append.1 (List.nodup_append.1 hn).1).2.2 n h1 n hd rfl
    · exact (List.nodup_append.1 hn).2.2 n (List.mem_append_right _ hd) n h2 rfl
  · intro hd n hw
    rcases List.mem_append.1 (h n hw) with h1 | h2
    · rcases List.mem_append.1 h1 with h1 | h1
      · exact List.mem_append_left _ h1
      · exact absurd hw (hd n h1)
    · exact List.mem_append_right _ h2

theorem map_push {β : Type*} (f : α → β) (cap : Nat) (buf : List α) (x : α) :
    (push cap buf x).map f = push cap (buf.map f) (f x) := by
  unfold push
  simp only [List.length_map, List.map_append, List.map_cons, List.map_nil]
  split
  · rw [List.map_tail]
  · rfl

theorem push_rtake {cap : Nat} (hc : 0 < cap) (xs : List α) (x : α) :
    push cap (xs.rtake cap) x = (xs ++ [x]).rtake cap := by
  simp only [push, List.rtake, List.length_drop, List.length_append, List.length_singleton]
  split
  · rename_i h
    have hle : cap ≤ xs.length := by omega
    rw [List.tail_drop, List.drop_append_of_le_length (by omega)]
    congr 2; omega
  · rename_i h
    have hlt : xs.length < cap := by omega
    rw [show xs.length - cap = 0 by omega, show xs.length + 1 - cap = 0 by omega]
    rfl

/-- The log numbered from `1`. -/
def number (xs : List α) : List (Int × α) := xs.mapIdx fun i x => ((i : Int) + 1, x)

@[simp] theorem length_number (xs : List α) : (number xs).length = xs.length := by simp [number]

theorem number_concat (xs : List α) (x : α) :
    number (xs ++ [x]) = number xs ++ [((xs.length : Int) + 1, x)] := by
  simp [number, List.mapIdx_append]

theorem getElem_number (xs : List α) (i : Nat) (h : i < xs.length) (h' : i < (number xs).length) :
    (number xs)[i] = ((i : Int) + 1, xs[i]) := by
  simp [number]

theorem map_fst_drop_number (xs : List α) (r : Nat) :
    ((number xs).drop r).map Prod.fst =
      (List.range' (r + 1) (xs.length - r)).map fun i : Nat => (i : Int) := by
  refine List.ext_getElem (by simp) fun i h _ => ?_
  have hi : r + i < xs.length := by
    simp only [List.length_map, List.length_drop, length_number] at h; omega
  rw [List.getElem_map, List.getElem_drop, getElem_number xs (r + i) hi, List.getElem_map,
    List.getElem_range']
  push_cast; ring

theorem lt_of_mem_drop_number {xs : List α} {k : Nat} {p : Int × α} (h : p ∈ (number xs).drop k) :
    (k : Int) < p.1 := by
  obtain ⟨i, hi, rfl⟩ := List.mem_iff_getElem.1 h
  have hi' : k + i < xs.length := by
    simp only [List.length_drop, length_number] at hi; omega
  rw [List.getElem_drop, getElem_number xs (k + i) hi']
  simp only; omega

theorem le_of_mem_take_number {xs : List α} {k : Nat} {p : Int × α} (h : p ∈ (number xs).take k) :
    p.1 ≤ (k : Int) := by
  obtain ⟨i, hi, rfl⟩ := List.mem_iff_getElem.1 h
  simp only [List.length_take, length_number] at hi
  rw [List.getElem_take, getElem_number xs i (by omega)]
  simp only; omega

theorem filter_drop_number (xs : List α) (k r : Nat) :
    ((number xs).drop k).filter (fun p => decide ((r : Int) < p.1)) = (number xs).drop (max k r) := by
  rcases Nat.le_total r k with h | h
  · rw [Nat.max_eq_left h]
    refine List.filter_eq_self.2 fun p hp => decide_eq_true ?_
    have := lt_of_mem_drop_number hp
    omega
  · rw [Nat.max_eq_right h]
    have hsplit : (number xs).drop k = ((number xs).take r).drop k ++ (number xs).drop r := by
      conv_lhs => rw [← List.take_append_drop r (number xs)]
      rcases Nat.le_total r xs.length with hr | hr
      · rw [List.drop_append_of_le_length (by simp [hr, h])]
      · rw [List.drop_of_length_le (i := r) (by simpa using hr), List.append_nil, List.append_nil]
    have hlow : (((number xs).take r).drop k).filter (fun p => decide ((r : Int) < p.1)) = [] := by
      refine List.filter_eq_nil_iff.2 fun p hp => ?_
      have := le_of_mem_take_number (List.mem_of_mem_drop hp)
      simp only [decide_eq_true_eq]; omega
    have hhigh : ((number xs).drop r).filter (fun p => decide ((r : Int) < p.1)) = (number xs).drop r :=
      List.filter_eq_self.2 fun p hp => decide_eq_true (lt_of_mem_drop_number hp)
    rw [hsplit, List.filter_append, hlow, hhigh, List.nil_append]

theorem filter_rtake_number (xs : List α) (cap r : Nat) :
    ((number xs).rtake cap).filter (fun p => decide ((r : Int) < p.1)) =
      (number xs).drop (max (xs.length - cap) r) := by
  rw [List.rtake, length_number, filter_drop_number]

end Window
