import Mathlib.Data.String.Basic

/-!
# Prefixes of a text by bytes

`&text[..n]` of Rust takes the first `n` bytes of a text in UTF-8, and panics if the text is shorter or `n` is inside a
character: `isSome_sliceTo_iff` says when it does not.
-/

namespace ByteSlice

open String (utf8Len)

def takeBytes (n : ℕ) : List Char → Option (List Char)
  | [] => if n = 0 then some [] else none
  | c :: cs => if n = 0 then some []
    else if c.utf8Size ≤ n then (takeBytes (n - c.utf8Size) cs).map fun taken => c :: taken
    else none

def sliceTo (text : String) (n : ℕ) : Option String := (takeBytes n text.toList).map String.ofList

/-- The text has a character that begins before byte `n` and ends behind it. -/
def Straddles (n : ℕ) (cs : List Char) : Prop :=
  ∃ before c after, cs = before ++ c :: after ∧ utf8Len before < n ∧ n < utf8Len before + c.utf8Size

variable {n : ℕ} {c : Char} {cs : List Char} {text : String}

theorem straddles_cons : Straddles n (c :: cs) ↔ 0 < n ∧ n < c.utf8Size ∨ Straddles (n - c.utf8Size) cs := by
  constructor
  · rintro ⟨before, d, after, hcs, hbefore, hafter⟩
    rcases before with _ | ⟨b, before⟩
    · obtain ⟨rfl, rfl⟩ := List.cons.inj hcs
      exact .inl ⟨hbefore, by simpa using hafter⟩
    · obtain ⟨rfl, rfl⟩ := List.cons.inj hcs
      rw [String.utf8Len_cons] at hbefore hafter
      exact .inr ⟨before, d, after, rfl, by omega, by omega⟩
  · rintro (⟨hpos, hlt⟩ | ⟨before, d, after, rfl, hbefore, hafter⟩)
    · exact ⟨[], c, cs, rfl, hpos, by simpa using hlt⟩
    · refine ⟨c :: before, d, after, rfl, ?_⟩
      rw [String.utf8Len_cons]
      omega

theorem not_straddles_zero : ¬ Straddles 0 cs := fun ⟨_, _, _, _, h, _⟩ => Nat.not_lt_zero _ h

theorem takeBytes_eq_none_iff : takeBytes n cs = none ↔ utf8Len cs < n ∨ Straddles n cs := by
  induction cs generalizing n with
  | nil =>
    have hnot : ¬ Straddles n [] := by simp [Straddles]
    rw [takeBytes, or_iff_left hnot, String.utf8Len_nil]
    split <;> simp <;> omega
  | cons c cs ih =>
    have hpos := Char.utf8Size_pos c
    rw [takeBytes, straddles_cons, String.utf8Len_cons]
    split
    · rename_i hn
      subst hn
      simp [not_straddles_zero]
    · split
      · rw [Option.map_eq_none_iff, ih]
        have hlt : utf8Len cs < n - c.utf8Size ↔ utf8Len cs + c.utf8Size < n := by omega
        have hnot : ¬ (0 < n ∧ n < c.utf8Size) := by omega
        rw [hlt, or_iff_right hnot]
      · exact iff_of_true rfl (.inr (.inl (by omega)))

theorem lt_of_straddles (h : Straddles n cs) : n < utf8Len cs := by
  obtain ⟨before, c, after, rfl, -, hlt⟩ := h
  rw [String.utf8Len_append, String.utf8Len_cons]
  omega

theorem utf8ByteSize_eq (text : String) : text.utf8ByteSize = utf8Len text.toList := by
  rw [← String.utf8ByteSize_ofList, String.ofList_toList]

theorem isSome_sliceTo_iff : (sliceTo text n).isSome ↔ n ≤ text.utf8ByteSize ∧ ¬ Straddles n text.toList := by
  rw [sliceTo, Option.isSome_map, Option.isSome_iff_ne_none, Ne, takeBytes_eq_none_iff, not_or, Nat.not_lt,
    utf8ByteSize_eq]

theorem not_straddles_of_ascii (h : ∀ c ∈ cs, c.utf8Size = 1) : ¬ Straddles n cs := by
  rintro ⟨before, c, after, rfl, hbefore, hafter⟩
  rw [h c (by simp)] at hafter
  omega

end ByteSlice
