import Mathlib.Data.List.Basic
import Mathlib.Data.List.TakeWhile

/-!
# Words of a text

`mem_splitOnP_iff` says which pieces a list falls into between the elements that split it, and
`trim_eq_iff` what is left of a list when elements of a kind are taken off both of its ends.
-/

namespace List

variable {α : Type*} {p : α → Bool} {l : List α}

def Borders (p : α → Bool) (side : Option α) : Prop := ∀ x ∈ side, p x = true

theorem exists_split (h : ∃ x ∈ l, p x = true) :
    ∃ first sep rest, l = first ++ sep :: rest ∧ (∀ x ∈ first, p x = false) ∧ p sep = true := by
  have hl : l.takeWhile (fun x => !p x) ++ l.dropWhile (fun x => !p x) = l := takeWhile_append_dropWhile
  have hfirst : ∀ x ∈ l.takeWhile (fun x => !p x), p x = false := by
    intro x hx
    simpa using mem_takeWhile_imp hx
  cases hd : l.dropWhile (fun x => !p x) with
  | nil =>
    obtain ⟨x, hx, hpx⟩ := h
    rw [hd, append_nil] at hl
    rw [hfirst x (hl.symm ▸ hx)] at hpx
    cases hpx
  | cons sep rest =>
    have hsep : (l.dropWhile fun x => !p x).head? = some sep := by rw [hd]; rfl
    have hnot := head?_dropWhile_not (fun x => !p x) l
    rw [hsep] at hnot
    exact ⟨_, sep, rest, by rw [← hd, hl], hfirst, by simpa using hnot⟩

theorem mem_splitOnP_iff {w : List α} :
    w ∈ l.splitOnP p ↔
      ∃ before after, l = before ++ (w ++ after) ∧ (∀ x ∈ w, p x = false) ∧ Borders p before.getLast? ∧
        Borders p after.head? := by
  constructor
  · intro h
    induction hn : l.length using Nat.strong_induction_on generalizing l with
    | _ n ih =>
      subst hn
      by_cases hsplit : ∃ x ∈ l, p x = true
      · obtain ⟨first, sep, rest, rfl, hfirst, hsep⟩ := exists_split hsplit
        rw [splitOnP_append_cons_of_forall_mem hfirst sep hsep] at h
        rcases mem_cons.1 h with rfl | h
        · exact ⟨[], sep :: rest, rfl, hfirst, nofun, by rintro x ⟨⟩; exact hsep⟩
        · obtain ⟨before, after, rfl, hw, hb, ha⟩ := ih rest.length (by simp; omega) h rfl
          refine ⟨first ++ sep :: before, after, by simp, hw, ?_, ha⟩
          cases hbefore : before with
          | nil =>
            rintro x hx
            rw [getLast?_append_of_ne_nil _ (cons_ne_nil sep [])] at hx
            obtain rfl := Option.some.inj hx
            exact hsep
          | cons c cs =>
            rw [hbefore] at hb
            rwa [getLast?_append_of_ne_nil _ (cons_ne_nil sep (c :: cs)), getLast?_cons_cons]
      · have hnone : ∀ x ∈ l, p x = false := fun x hx => by
          cases hpx : p x with
          | false => rfl
          | true => exact absurd ⟨x, hx, hpx⟩ hsplit
        rw [splitOnP_eq_singleton hnone, mem_singleton] at h
        exact ⟨[], [], by simp [h], h ▸ hnone, nofun, nofun⟩
  · rintro ⟨before, after, rfl, hw, hb, ha⟩
    have hend : w ∈ (w ++ after).splitOnP p := by
      cases after with
      | nil => rw [append_nil, splitOnP_eq_singleton hw]; exact mem_singleton.2 rfl
      | cons sep rest =>
        rw [splitOnP_append_cons_of_forall_mem hw sep (ha sep rfl)]; exact mem_cons_self
    rcases eq_nil_or_concat before with rfl | ⟨start, sep, rfl⟩
    · exact hend
    · rw [concat_eq_append, append_assoc, singleton_append, splitOnP_append_cons _ _ (hb sep (by simp))]
      exact mem_append_right _ hend

theorem dropWhile_eq_iff {w : List α} :
    l.dropWhile p = w ↔ ∃ left, l = left ++ w ∧ (∀ x ∈ left, p x = true) ∧ ∀ x ∈ w.head?, p x = false := by
  constructor
  · rintro rfl
    refine ⟨l.takeWhile p, takeWhile_append_dropWhile.symm, fun x hx => mem_takeWhile_imp hx, fun x hx => ?_⟩
    have hnot := head?_dropWhile_not p l
    rwa [Option.mem_def.1 hx] at hnot
  · rintro ⟨left, rfl, hl, hw⟩
    rw [dropWhile_append_of_pos hl]
    cases w with
    | nil => rfl
    | cons x w => exact dropWhile_cons_of_neg (by simp [hw x rfl])

/-- `p` holds neither of the first element nor of the last. -/
def Trimmed (p : α → Bool) (l : List α) : Prop := (∀ x ∈ l.head?, p x = false) ∧ ∀ x ∈ l.getLast?, p x = false

theorem trim_eq_iff {w : List α} :
    ((l.dropWhile p).reverse.dropWhile p).reverse = w ↔
      ∃ left right, l = left ++ (w ++ right) ∧ (∀ x ∈ left, p x = true) ∧ (∀ x ∈ right, p x = true) ∧
        Trimmed p w := by
  rw [reverse_eq_iff, dropWhile_eq_iff]
  constructor
  · rintro ⟨right, hr, hright, hlast⟩
    rw [head?_reverse] at hlast
    rw [reverse_eq_append_iff, reverse_reverse, dropWhile_eq_iff] at hr
    obtain ⟨left, rfl, hleft, hhead⟩ := hr
    refine ⟨left, right.reverse, rfl, hleft, fun x hx => hright x (mem_reverse.1 hx), fun x hx => ?_, hlast⟩
    cases w with
    | nil => cases hx
    | cons y w => exact hhead x hx
  · rintro ⟨left, right, rfl, hleft, hright, hhead, hlast⟩
    cases w with
    | nil =>
      -- everything is taken off
      refine ⟨[], ?_, nofun, nofun⟩
      rw [dropWhile_eq_nil_iff.2]
      · rfl
      · intro x hx
        rcases mem_append.1 hx with hx | hx
        · exact hleft x hx
        · exact hright x hx
    | cons y w =>
      refine ⟨right.reverse, ?_, fun x hx => hright x (mem_reverse.1 hx), by rwa [head?_reverse]⟩
      rw [dropWhile_append_of_pos hleft, cons_append, dropWhile_cons_of_neg (by simp [hhead y rfl]), ← cons_append,
        reverse_append]

end List
