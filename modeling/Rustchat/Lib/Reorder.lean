import Mathlib.Data.List.Perm.Basic

/-!
# Lists in another order

`reorder code l` is `l` in the order that `code` picks: each number of the code picks the next element among those
that are left, the first ones where the code ends. What comes out is a permutation of `l`.
-/

namespace List

variable {α : Type*}

def reorder : List ℕ → List α → List α
  | _, [] => []
  | [], x :: l => x :: l
  | c :: code, x :: l =>
    let i : Fin (x :: l).length := Fin.ofNat _ c
    (x :: l).get i :: reorder code ((x :: l).eraseIdx i)

theorem reorder_perm (code : List ℕ) (l : List α) : (reorder code l).Perm l := by
  induction code generalizing l with
  | nil => cases l <;> exact .rfl
  | cons c code ih =>
    cases l with
    | nil => exact .rfl
    | cons x l => exact ((ih _).cons _).trans (getElem_cons_eraseIdx_perm _)

@[simp] theorem mem_reorder {code : List ℕ} {l : List α} {a : α} : a ∈ reorder code l ↔ a ∈ l :=
  (reorder_perm code l).mem_iff

end List
