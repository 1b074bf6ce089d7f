import Rustchat.MarkdownTransforms

/-!
# Line prefixes

The buttons for headings, quotes and lists put their prefix before every line that the selection touches, or take it
from all of them when all have it. Putting it on is undone by the same button.
-/

open Slice Utf16

namespace Rustchat

namespace Markdown

open TextSelection

inductive LineButton
  | heading (level : Level)
  | quote
  | bulletedList
  | numberedList

namespace LineButton

def apply : LineButton → TextSelection → TextSelection
  | heading level => (makeHeading · level)
  | quote => makeQuote
  | bulletedList => makeBulletedList
  | numberedList => makeNumberedList

def marker : LineButton → Units
  | heading level => hashes level ++ [unit ' ']
  | quote => [unit '>', unit ' ']
  | bulletedList => [unit '-', unit ' ']
  | numberedList => [unit '1', unit '.', unit ' ']

theorem apply_eq (l : LineButton) (s : TextSelection) : l.apply s = toggleLinePrefix s l.marker := by
  cases l <;> rfl

theorem newline_notMem_marker (l : LineButton) : newline ∉ l.marker := by
  have hhash : newline ≠ unit '#' := by decide
  cases l with
  | heading level =>
    have hhashes : newline ∉ hashes level := by
      cases level <;> simp [hashes, hhash]
    exact fun h => (List.mem_append.1 h).elim hhashes (by simp [newline, unit])
  | quote => simp [marker, newline, unit]
  | bulletedList => simp [marker, newline, unit]
  | numberedList => simp [marker, newline, unit]

end LineButton

/-- The lines from the one where the selection starts; the last one goes to the selection's end. -/
def TextSelection.touchedLines (s : TextSelection) : List Units :=
  (substring s.text (lastIndexOf [newline] s.before + 1) s.selectionEnd).splitOn newline

section Marker

variable {marker : Units} {lines : List Units}

theorem map_drop_map_append : (lines.map (marker ++ ·)).map (·.drop marker.length) = lines := by
  simp [Function.comp_def]

theorem map_append_map_drop (h : ∀ line ∈ lines, marker <+: line) :
    (lines.map (·.drop marker.length)).map (marker ++ ·) = lines := by
  rw [List.map_map]
  refine (List.map_congr_left fun line hline => ?_).trans (List.map_id lines)
  obtain ⟨rest, rfl⟩ := h line hline
  simp

end Marker

/-- A line starts after `b`. -/
def StartsLine (b : Units) : Prop := b = [] ∨ ∃ c, b = c ++ [newline]

theorem StartsLine.lineStart {b f : Units} (h : StartsLine b) (hf : newline ∉ f) :
    lastIndexOf [newline] (b ++ f) + 1 = b.length := by
  rcases h with rfl | ⟨c, rfl⟩
  · rw [List.nil_append, lastIndexOf_singleton_of_notMem hf]
    rfl
  · rw [List.append_assoc, List.singleton_append, lastIndexOf_singleton_append hf]
    simp

theorem exists_startsLine (u : Units) : ∃ b f, u = b ++ f ∧ StartsLine b ∧ newline ∉ f := by
  by_cases h : newline ∈ u
  · obtain ⟨f, b, hu, hf⟩ := List.eq_append_cons_of_mem (List.mem_reverse.2 h)
    refine ⟨b.reverse ++ [newline], f.reverse, ?_, .inr ⟨b.reverse, rfl⟩, by simpa using hf⟩
    rw [← List.reverse_reverse u, hu]
    simp
  · exact ⟨[], u, rfl, .inl rfl, h⟩

/-! ### The transform on a selection in parts -/

section Parts

variable {marker b f x a : Units}

theorem substring_line : substring (b ++ f ++ x ++ a) b.length (b.length + f.length + x.length) = f ++ x := by
  have h := substring_mid (a := b) (b := f ++ x) (c := a)
  rw [List.length_append, Nat.cast_add, ← Int.add_assoc] at h
  rw [← h]
  simp only [List.append_assoc]

theorem touchedLines_ofParts (hb : StartsLine b) (hf : newline ∉ f) :
    (ofParts (b ++ f) x a).touchedLines = (f ++ x).splitOn newline := by
  rw [touchedLines, before_ofParts, hb.lineStart hf]
  simp only [ofParts, List.length_append, Nat.cast_add, substring_line]

theorem toggleLinePrefix_ofParts (hb : StartsLine b) (hf : newline ∉ f) {lines newLines : List Units} {change : ℤ}
    (hlines : (f ++ x).splitOn newline = lines)
    (hnew : ((∀ line ∈ lines, marker <+: line) ∧ newLines = lines.map (·.drop marker.length) ∧ change = -marker.length) ∨
      ((¬ ∀ line ∈ lines, marker <+: line) ∧ newLines = lines.map (marker ++ ·) ∧ change = marker.length)) :
    toggleLinePrefix (ofParts (b ++ f) x a) marker =
      { text := b ++ [newline].intercalate newLines ++ a
        selectionStart := max b.length (b.length + f.length + change)
        selectionEnd := b.length + f.length + x.length + change * lines.length } := by
  have hbefore := before_ofParts (b := b ++ f) (x := x) (a := a)
  have hafter := after_ofParts (b := b ++ f) (x := x) (a := a)
  simp only [before, after] at hbefore hafter
  have hline : substring (ofParts (b ++ f) x a).text b.length (ofParts (b ++ f) x a).selectionEnd = f ++ x := by
    simp only [ofParts, List.length_append, Nat.cast_add, substring_line]
  have hall : (lines.all fun line => marker.isPrefixOf line) = true ↔ ∀ line ∈ lines, marker <+: line := by
    simp
  simp only [toggleLinePrefix, hbefore, hafter, hb.lineStart hf, hline, hlines, substring_left, hall]
  rcases hnew with ⟨h, rfl, rfl⟩ | ⟨h, rfl, rfl⟩
  · simp only [if_pos h]
    simp [ofParts]
  · simp only [if_neg h]
    simp [ofParts]

end Parts

/-! ### The prefix put on and taken off -/

section Twice

variable {marker b f x a : Units}

/-- The rest of the touched lines after the part before the selection, with the prefix on all of them but the first. -/
theorem exists_marked (marker x : Units) (hf : newline ∉ f) :
    ∃ x', [newline].intercalate (((f ++ x).splitOn newline).map (marker ++ ·)) = marker ++ f ++ x' := by
  obtain ⟨line, lines, hlines⟩ := List.exists_cons_of_ne_nil (List.splitOn_ne_nil newline x)
  rw [splitOn_append_of_notMem hf, hlines, List.modifyHead_cons, List.map_cons, ← List.append_assoc, intercalate_cons_append]
  exact ⟨_, rfl⟩

theorem length_marked (marker : Units) (lines : List Units) : ([newline].intercalate (lines.map (marker ++ ·))).length =
    (([newline].intercalate lines).length : ℤ) + marker.length * lines.length := by
  rw [length_intercalate_map_append, Int.natCast_add, Int.natCast_mul]

theorem toggleLinePrefix_of_not_all (hb : StartsLine b) (hf : newline ∉ f)
    (h : ¬ ∀ line ∈ (f ++ x).splitOn newline, marker <+: line) {x' : Units}
    (hx' : [newline].intercalate (((f ++ x).splitOn newline).map (marker ++ ·)) = marker ++ f ++ x') :
    toggleLinePrefix (ofParts (b ++ f) x a) marker = ofParts (b ++ (marker ++ f)) x' a := by
  have hlength := length_marked marker ((f ++ x).splitOn newline)
  rw [List.intercalate_splitOn, hx'] at hlength
  rw [toggleLinePrefix_ofParts hb hf rfl (.inr ⟨h, rfl, rfl⟩), hx']
  simp only [ofParts, mk.injEq, List.append_assoc, List.length_append, Nat.cast_add, true_and] at hlength ⊢
  constructor <;> omega

theorem valid_of_all (hb : StartsLine b) (hf : newline ∉ f) (h : ∀ line ∈ (f ++ x).splitOn newline, marker <+: line) :
    (toggleLinePrefix (ofParts (b ++ f) x a) marker).Valid := by
  obtain ⟨line, lines, hlines⟩ := List.exists_cons_of_ne_nil (List.splitOn_ne_nil newline x)
  rw [splitOn_append_of_notMem hf, hlines, List.modifyHead_cons] at h
  rw [toggleLinePrefix_ofParts hb hf (splitOn_append_of_notMem hf) (.inl ⟨by simpa [hlines] using h, rfl, rfl⟩), hlines,
    List.modifyHead_cons]
  have hlength := length_marked marker (((f ++ line) :: lines).map (·.drop marker.length))
  rw [map_append_map_drop h, List.length_map, intercalate_cons_append, ← hlines, List.intercalate_splitOn] at hlength
  have hfirst := intercalate_cons_append (x := newline) ((f ++ line).drop marker.length) [] (lines.map (·.drop marker.length))
  rw [List.append_nil] at hfirst
  simp only [Valid, List.map_cons, hfirst, List.length_append, List.length_drop, Nat.cast_add] at hlength ⊢
  rw [Int.neg_mul]
  refine ⟨le_max_of_le_left (by omega), max_le (by omega) (by omega), by omega⟩

theorem toggleLinePrefix_of_all (hb : StartsLine b) (hf : newline ∉ f) (hmarker : newline ∉ marker)
    {x' : Units} (hx' : [newline].intercalate (((f ++ x).splitOn newline).map (marker ++ ·)) = marker ++ f ++ x') :
    toggleLinePrefix (ofParts (b ++ (marker ++ f)) x' a) marker = ofParts (b ++ f) x a := by
  have hmf : newline ∉ marker ++ f := by
    rw [List.mem_append, not_or]
    exact ⟨hmarker, hf⟩
  have hlines : (marker ++ f ++ x').splitOn newline = ((f ++ x).splitOn newline).map (marker ++ ·) := by
    rw [← hx']
    refine List.splitOn_intercalate newline ?_ (by simp [List.splitOn_ne_nil])
    intro line hline
    obtain ⟨rest, hrest, rfl⟩ := List.mem_map.1 hline
    rw [List.mem_append, not_or]
    exact ⟨hmarker, notMem_of_mem_splitOn hrest⟩
  have hall : ∀ line ∈ ((f ++ x).splitOn newline).map (marker ++ ·), marker <+: line := by
    simp
  have hlength := length_marked marker ((f ++ x).splitOn newline)
  rw [List.intercalate_splitOn, hx'] at hlength
  rw [toggleLinePrefix_ofParts hb hmf hlines (.inl ⟨hall, rfl, rfl⟩), map_drop_map_append, List.intercalate_splitOn]
  simp only [ofParts, mk.injEq, List.append_assoc, List.length_append, List.length_map, Nat.cast_add, true_and] at hlength ⊢
  rw [Int.neg_mul]
  constructor <;> omega

end Twice

theorem lineButton_twice (l : LineButton) (s : TextSelection) (hs : s.Valid) :
    (l.apply s).Valid ∧ ((¬ ∀ line ∈ s.touchedLines, l.marker <+: line) → l.apply (l.apply s) = s) := by
  obtain ⟨u, x, a, rfl⟩ := hs.exists_parts
  obtain ⟨b, f, rfl, hb, hf⟩ := exists_startsLine u
  obtain ⟨x', hx'⟩ := exists_marked l.marker x hf
  rw [touchedLines_ofParts hb hf, l.apply_eq]
  by_cases h : ∀ line ∈ (f ++ x).splitOn newline, l.marker <+: line
  · exact ⟨valid_of_all hb hf h, fun hnot => absurd h hnot⟩
  · have honce := toggleLinePrefix_of_not_all (a := a) hb hf h hx'
    refine ⟨?_, fun _ => ?_⟩
    · rw [honce]
      exact valid_ofParts
    · rw [honce, l.apply_eq]
      exact toggleLinePrefix_of_all hb hf l.newline_notMem_marker hx'

/-- A selection from the middle of the first line to the middle of the last one, over a quote. -/
def overQuote : TextSelection := ⟨"ab\n> cd\nef".toList.map unit, 1, 9⟩

theorem lineButton_twice_quote : (LineButton.quote.apply overQuote).Valid ∧
    LineButton.quote.apply (LineButton.quote.apply overQuote) = overQuote := by
  obtain ⟨hvalid, htwice⟩ := lineButton_twice .quote overQuote (by decide)
  exact ⟨hvalid, htwice (by decide)⟩

end Markdown
end Rustchat
