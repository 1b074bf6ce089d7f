import Rustchat.MarkdownTransforms

/-!
# Code blocks

The button puts fences around the selection. It looks for them in the four units before the selection, the last of which
is then the newline after the opening fence, so what it keeps of the text goes beyond the place where the fence begins.
-/

open Slice Utf16

namespace Rustchat

namespace Markdown

open TextSelection

variable {b x a language : Units}

def opening (language : Units) : Units := fence ++ language ++ [newline]

def closing : Units := newline :: fence

theorem length_opening : (opening language).length = language.length + 4 := by
  simp [opening, fence]

theorem backtick_mem_of_includes {s : Units} (h : includes fence s) : backtick ∈ s :=
  (infix_of_includes h).subset (by simp [fence])

theorem makeCodeBlock_ofParts (language : Units) :
    makeCodeBlock (ofParts b x a) language = ofParts (b ++ opening language) x (closing ++ a) ∨
      includes fence (b.drop (b.length - 4)) ∧ ∃ rest, (makeCodeBlock (ofParts b x a) language).text =
        substring (b ++ x ++ a) 0 (b.length - lastIndexOf fence (b.drop (b.length - 4)) - 3) ++ rest := by
  have hwindow := substring_before (a := b) (b := x ++ a) 4
  have hb := before_ofParts (b := b) (x := x) (a := a)
  have hx := selected_ofParts (b := b) (x := x) (a := a)
  have ha := after_ofParts (b := b) (x := x) (a := a)
  rw [← List.append_assoc] at hwindow
  simp only [before, selected, after, ofParts] at hb hx ha hwindow
  simp only [makeCodeBlock, ofParts, hb, hx, ha]
  split
  · rename_i h
    rw [← hwindow]
    exact .inr ⟨h.1, _, by rw [List.append_assoc]; rfl⟩
  · refine .inl ?_
    simp [opening, closing]
    omega

/-- What is kept of the text before the selection goes beyond a fence before the selection's last unit. -/
theorem lastIndexOf_fence_le {window : Units} (hlength : window.length ≤ 4) (hlast : window.getLast? = some newline) :
    lastIndexOf fence window ≤ 0 := by
  by_contra h
  obtain ⟨i, hi⟩ := Int.eq_ofNat_of_zero_le (by omega : 0 ≤ lastIndexOf fence window)
  obtain ⟨rest, hrest⟩ := prefix_of_lastIndexOf hi
  have hlen := congrArg List.length hrest
  simp only [List.length_append, List.length_drop, fence, List.length_cons, List.length_nil] at hlen
  obtain rfl : rest = [] := List.length_eq_zero_iff.1 (by omega)
  have hdrop := congrArg List.getLast? hrest
  rw [List.append_nil, List.getLast?_drop, if_neg (by omega), hlast] at hdrop
  simp [fence, backtick, newline, unit] at hdrop

theorem backtick_mem_substring {r : Units} {j : ℤ} (h : (b.length : ℤ) + 1 ≤ j) :
    backtick ∈ substring (b ++ backtick :: r) 0 j := by
  obtain ⟨n, rfl⟩ : ∃ n : ℕ, j = ((b.length + (n + 1) : ℕ) : ℤ) := ⟨(j - b.length - 1).toNat, by omega⟩
  have hsub := substring_of_le (s := b ++ backtick :: r) (i := 0) (j := b.length + (n + 1)) (Nat.zero_le _)
  rw [List.take_length_add_append, List.take_succ_cons, List.drop_zero] at hsub
  rw [← Nat.cast_zero, hsub]
  simp

/-- The block that the button puts on, put on a second time, does not give the text back. -/
theorem makeCodeBlock_twice_ne {s : TextSelection} (hvalid : s.Valid) (hticks : backtick ∉ s.text) (language : Units) :
    (makeCodeBlock s language).Valid ∧ makeCodeBlock (makeCodeBlock s language) language ≠ s := by
  obtain ⟨b, x, a, rfl⟩ := hvalid.exists_parts
  have honce : makeCodeBlock (ofParts b x a) language = ofParts (b ++ opening language) x (closing ++ a) := by
    rcases makeCodeBlock_ofParts (b := b) (x := x) (a := a) language with h | ⟨h, -⟩
    · exact h
    · refine absurd (List.mem_of_mem_drop (backtick_mem_of_includes h)) fun hb => hticks ?_
      simp [ofParts, hb]
  rw [honce]
  refine ⟨valid_ofParts, fun htwice => ?_⟩
  rcases makeCodeBlock_ofParts (b := b ++ opening language) (x := x) (a := closing ++ a) language with h | ⟨-, rest, h⟩
  · have hlength := congrArg (fun s : TextSelection => s.text.length) (h.symm.trans htwice)
    simp only [ofParts, List.length_append, length_opening] at hlength
    omega
  · rw [htwice] at h
    refine hticks ?_
    rw [h]
    refine List.mem_append_left _ ?_
    have hwindow : lastIndexOf fence ((b ++ opening language).drop ((b ++ opening language).length - 4)) ≤ 0 := by
      refine lastIndexOf_fence_le ?_ ?_
      · rw [List.length_drop]
        omega
      · rw [List.getLast?_drop, if_neg]
        · simp [opening]
        · rw [List.length_append, length_opening]
          omega
    have htext : b ++ opening language ++ x ++ (closing ++ a) =
        b ++ backtick :: ([backtick, backtick] ++ language ++ [newline] ++ x ++ (closing ++ a)) := by
      simp [opening, fence]
    have hlength : (b ++ opening language).length = b.length + (language.length + 4) := by
      rw [List.length_append, length_opening]
    rw [htext]
    refine backtick_mem_substring ?_
    omega

theorem makeCodeBlock_twice_word :
    let s : TextSelection := ⟨[unit 'a'], 0, 1⟩
    (makeCodeBlock s []).Valid ∧ makeCodeBlock (makeCodeBlock s []) [] ≠ s :=
  makeCodeBlock_twice_ne (s := ⟨[unit 'a'], 0, 1⟩) (by decide) (by decide) []

/-- One backtick of the opening fence and the newline after the selection stay. -/
theorem makeCodeBlock_leaves_backtick :
    let s : TextSelection := ⟨[unit 'a'], 0, 1⟩
    s.Valid ∧ backtick ∉ s.text ∧
      (makeCodeBlock (makeCodeBlock s []) []).text = [backtick, unit 'a'] := by
  decide

end Markdown
end Rustchat
