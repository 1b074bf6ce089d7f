import Rustchat.MarkdownTransforms

/-!
# Runs of the four toggles

Starting between two units that are no markers, the toggles keep the same word of markers on both sides of the
selection, mirrored on the left: a toggle takes its delimiter off that word or puts it on. It undoes itself unless the
word begins with the delimiter twice, and only the delimiter of italic can stand there twice.
-/

open Slice Utf16

namespace Rustchat

namespace Markdown

open TextSelection

inductive Toggle
  | bold
  | italic
  | strikethrough
  | inlineCode
deriving DecidableEq

namespace Toggle

def apply : Toggle → TextSelection → TextSelection
  | bold => makeBold
  | italic => makeItalic
  | strikethrough => makeStrikethrough
  | inlineCode => makeInlineCode

def delimiter : Toggle → Units
  | bold => [asterisk, asterisk]
  | italic => [asterisk]
  | strikethrough => [tilde, tilde]
  | inlineCode => [backtick]

theorem apply_eq (t : Toggle) (s : TextSelection) : t.apply s = toggleWrap s t.delimiter t.delimiter := by
  cases t <;> rfl

def run (ops : List Toggle) (s : TextSelection) : TextSelection := ops.foldl (fun s t => t.apply s) s

end Toggle

def IsMarker (u : UInt16) : Prop := u = asterisk ∨ u = tilde ∨ u = backtick

/-- No marker stands directly before or after the selection. -/
def TextSelection.Clear (s : TextSelection) : Prop :=
  (∀ u ∈ s.before.getLast?, ¬ IsMarker u) ∧ ∀ u ∈ s.after.head?, ¬ IsMarker u

/-- Both sides of the selection show `d`. -/
def TextSelection.Within (s : TextSelection) (d : Units) : Prop := d <:+ s.before ∧ d <+: s.after

section OneToggle

variable {b x a d : Units}

theorem wrapSelection_ofParts (left right : Units) :
    wrapSelection (ofParts b x a) left right = ofParts (b ++ left) x (right ++ a) := by
  have hb := before_ofParts (b := b) (x := x) (a := a)
  have hx := selected_ofParts (b := b) (x := x) (a := a)
  have ha := after_ofParts (b := b) (x := x) (a := a)
  simp only [before, selected, after] at hb hx ha
  simp only [wrapSelection, hb, hx, ha]
  split
  all_goals
    simp only [ofParts, mk.injEq, List.append_assoc, List.length_append, Nat.cast_add, true_and] at *
    omega

theorem windows_iff :
    (substring (ofParts b x a).text (max 0 ((ofParts b x a).selectionStart - d.length)) (ofParts b x a).selectionStart = d ∧
      substring (ofParts b x a).text (ofParts b x a).selectionEnd
        (min (ofParts b x a).text.length ((ofParts b x a).selectionEnd + d.length)) = d) ↔ d <:+ b ∧ d <+: a := by
  have hbefore := substring_before (a := b) (b := x ++ a) d.length
  have hafter := substring_after (a := b ++ x) (b := a) d.length
  rw [← List.append_assoc] at hbefore
  rw [@List.length_append _ b, Nat.cast_add] at hafter
  rw [List.suffix_iff_eq_drop, List.prefix_iff_eq_take, eq_comm (a := d), eq_comm (a := d)]
  simp only [ofParts, hbefore, hafter]

theorem toggleWrap_of_within : toggleWrap (ofParts (b ++ d) x (d ++ a)) d d = ofParts b x a := by
  have hx := selected_ofParts (b := b ++ d) (x := x) (a := d ++ a)
  have hb := substring_left (a := b) (b := d ++ (x ++ (d ++ a)))
  have ha := substringFrom_right (a := b ++ d ++ x ++ d) (b := a)
  rw [toggleWrap, if_pos (windows_iff.2 ⟨List.suffix_append b d, List.prefix_append d a⟩)]
  simp only [selected] at hx
  simp only [hx]
  simp only [ofParts, List.append_assoc, List.length_append, Nat.cast_add, mk.injEq] at hb ha ⊢
  refine ⟨?_, by omega, by omega⟩
  rw [show (b.length : ℤ) + d.length - d.length = b.length by omega, hb, ← ha]
  simp only [Int.add_assoc, ha]

theorem toggleWrap_of_not_within (h : ¬ (d <:+ b ∧ d <+: a)) : toggleWrap (ofParts b x a) d d = ofParts (b ++ d) x (d ++ a) := by
  rw [toggleWrap, if_neg (windows_iff.not.2 h), wrapSelection_ofParts]

end OneToggle

/-! ### The word of markers around the selection -/

/-- The selection `x` between `pre` and `post`, with the word `w` of markers on both sides. -/
def surrounded (pre w x post : Units) : TextSelection := ofParts (pre ++ w.reverse) x (w ++ post)

namespace Toggle

def onWord (t : Toggle) (w : Units) : Units :=
  if t.delimiter <+: w then w.drop t.delimiter.length else t.delimiter ++ w

def NoDoubles (w : Units) : Prop := ∀ t : Toggle, t ≠ italic → ¬ t.delimiter ++ t.delimiter <:+: w

variable {t : Toggle} {pre w x post : Units}

@[simp] theorem reverse_delimiter : t.delimiter.reverse = t.delimiter := by
  cases t <;> rfl

theorem delimiter_ne_nil : t.delimiter ≠ [] := by
  cases t <;> simp [delimiter]

theorem isMarker_of_mem_delimiter {u : UInt16} (h : u ∈ t.delimiter) : IsMarker u := by
  cases t <;> simp [delimiter] at h <;> simp [IsMarker, h]

theorem prefix_word_iff {d : Units} (hd : ∀ u ∈ d, IsMarker u) (hpost : ∀ u ∈ post.head?, ¬ IsMarker u) :
    d <+: w ++ post ↔ d <+: w := by
  constructor
  · intro h
    rcases List.prefix_or_prefix_of_prefix h (List.prefix_append w post) with h' | ⟨e, rfl⟩
    · exact h'
    · rw [List.prefix_append_right_inj] at h
      cases e with
      | nil => simp
      | cons u e =>
        obtain ⟨r, rfl⟩ := h
        exact absurd (hd u (by simp)) (hpost u (by simp))
  · intro h
    exact h.trans (List.prefix_append w post)

theorem within_surrounded_iff (pre w x : Units) {d : Units} (hd : ∀ u ∈ d, IsMarker u) (hrev : d.reverse = d)
    (hpost : ∀ u ∈ post.head?, ¬ IsMarker u) : (surrounded pre w x post).Within d ↔ d <+: w := by
  rw [Within, surrounded, before_ofParts, after_ofParts, prefix_word_iff hd hpost]
  constructor
  · intro h
    exact h.2
  · intro h
    refine ⟨?_, h⟩
    rw [← hrev]
    exact (List.reverse_suffix.2 h).trans (List.suffix_append pre w.reverse)

theorem apply_surrounded (hpost : ∀ u ∈ post.head?, ¬ IsMarker u) :
    t.apply (surrounded pre w x post) = surrounded pre (t.onWord w) x post := by
  have hwithin := within_surrounded_iff pre w x (fun u hu => isMarker_of_mem_delimiter hu)
    (reverse_delimiter : t.delimiter.reverse = t.delimiter) hpost
  rw [Within, surrounded, before_ofParts, after_ofParts] at hwithin
  rw [apply_eq, onWord]
  split
  · rename_i h
    obtain ⟨v, rfl⟩ := h
    rw [List.drop_left, surrounded, List.reverse_append, reverse_delimiter, List.append_assoc, ← List.append_assoc pre,
      toggleWrap_of_within, surrounded]
  · rename_i h
    rw [surrounded, toggleWrap_of_not_within (hwithin.not.2 h), surrounded, List.reverse_append, reverse_delimiter,
      List.append_assoc, List.append_assoc]

@[simp] theorem onWord_append (v : Units) : t.onWord (t.delimiter ++ v) = v := by
  rw [onWord, if_pos (List.prefix_append _ v), List.drop_left]

theorem onWord_of_not (h : ¬ t.delimiter <+: w) : t.onWord w = t.delimiter ++ w := if_neg h

theorem onWord_onWord_iff : t.onWord (t.onWord w) = w ↔ ¬ t.delimiter ++ t.delimiter <+: w := by
  have hpos := List.length_pos_of_ne_nil (delimiter_ne_nil (t := t))
  by_cases h : t.delimiter <+: w
  · obtain ⟨v, rfl⟩ := h
    rw [onWord_append, List.prefix_append_right_inj]
    by_cases h : t.delimiter <+: v
    · obtain ⟨u, rfl⟩ := h
      rw [onWord_append]
      refine iff_of_false (fun hu => ?_) (not_not.2 (List.prefix_append _ u))
      have hlength := congrArg List.length hu
      simp only [List.length_append] at hlength
      omega
    · exact iff_of_true (onWord_of_not h) h
  · rw [onWord_of_not h, onWord_append]
    exact iff_of_true rfl fun hdouble => h ((List.prefix_append _ _).trans hdouble)

theorem NoDoubles.onWord (h : NoDoubles w) : NoDoubles (t.onWord w) := by
  by_cases hfirst : t.delimiter <+: w
  · obtain ⟨v, rfl⟩ := hfirst
    rw [onWord_append]
    intro t' ht' hdouble
    exact h t' ht' (hdouble.trans (List.suffix_append _ v).isInfix)
  · rw [onWord_of_not hfirst]
    intro t' ht'
    have hw := h t' ht'
    have hthree : ∀ u : UInt16, ¬ [u] <+: w ∨ ¬ [u, u] <+: w → ¬ [u, u, u] <+: w := by
      rintro u (hu | hu) hthree
      · exact hu (List.IsPrefix.trans (by simp) hthree)
      · exact hu (List.IsPrefix.trans (by simp) hthree)
    cases t' <;> cases t <;>
      simp_all [delimiter, List.infix_cons_iff, List.cons_prefix_cons, asterisk, tilde, backtick, unit]

/-! ### Runs -/

theorem run_surrounded (hpost : ∀ u ∈ post.head?, ¬ IsMarker u) (ops : List Toggle) :
    run ops (surrounded pre w x post) = surrounded pre (ops.foldl (fun w t => t.onWord w) w) x post := by
  induction ops generalizing w with
  | nil => rfl
  | cons t ops ih => exact (congrArg (run ops) (apply_surrounded hpost)).trans ih

theorem NoDoubles.run (h : NoDoubles w) (ops : List Toggle) : NoDoubles (ops.foldl (fun w t => t.onWord w) w) := by
  induction ops generalizing w with
  | nil => exact h
  | cons t ops ih => exact ih h.onWord

theorem surrounded_inj {w' : Units} (h : surrounded pre w x post = surrounded pre w' x post) : w = w' := by
  have hbefore := congrArg before h
  simpa only [surrounded, before_ofParts, List.append_cancel_left_eq, List.reverse_inj] using hbefore

/-- A toggle undoes itself in every reached state, but italic takes two markers of bold apart. -/
theorem toggle_twice_iff (s : TextSelection) (hvalid : s.Valid) (hclear : s.Clear) (ops : List Toggle) (t : Toggle) :
    ((run ops s).Valid ∧ (run ops s).selected = s.selected ∧ t.apply (t.apply (run ops s)) = run ops s) ↔
      ¬ (t = italic ∧ (run ops s).Within [asterisk, asterisk]) := by
  obtain ⟨pre, x, post, rfl⟩ := hvalid.exists_parts
  have hpost := hclear.2
  rw [after_ofParts] at hpost
  have hstart : ofParts pre x post = surrounded pre [] x post := by simp [surrounded]
  have hdoubles : NoDoubles [] := fun t _ h => delimiter_ne_nil (List.append_eq_nil_iff.1 (List.infix_nil.1 h)).1
  rw [hstart, run_surrounded hpost]
  have hrun := hdoubles.run ops
  generalize ops.foldl (fun w t => t.onWord w) [] = w at hrun
  have htwice : t.apply (t.apply (surrounded pre w x post)) = surrounded pre w x post ↔ ¬ t.delimiter ++ t.delimiter <+: w := by
    rw [apply_surrounded hpost, apply_surrounded hpost, ← onWord_onWord_iff]
    exact ⟨surrounded_inj, congrArg (surrounded pre · x post)⟩
  rw [htwice, within_surrounded_iff pre w x (by simp [IsMarker]) rfl hpost]
  have hvalid' : (surrounded pre w x post).Valid := valid_ofParts
  have hselected : (surrounded pre w x post).selected = (surrounded pre [] x post).selected := by
    rw [surrounded, surrounded, selected_ofParts, selected_ofParts]
  simp only [hvalid', hselected, true_and, not_iff_not]
  constructor
  · intro h
    by_cases ht : t = italic
    · subst ht
      exact ⟨rfl, h⟩
    · exact absurd h.isInfix (hrun t ht)
  · rintro ⟨rfl, h⟩
    exact h

theorem toggle_twice_bold :
    let s : TextSelection := ⟨[unit 'x'], 0, 1⟩
    ((run [bold] s).Valid ∧ (run [bold] s).selected = s.selected ∧
        strikethrough.apply (strikethrough.apply (run [bold] s)) = run [bold] s) ↔
      ¬ (strikethrough = italic ∧ (run [bold] s).Within [asterisk, asterisk]) :=
  toggle_twice_iff ⟨[unit 'x'], 0, 1⟩ (by decide) (by simp [Clear, before, after, substring, substringFrom]) [bold] strikethrough

/-- Italic twice takes the bold off a word. -/
theorem italic_twice_strips_bold :
    let s : TextSelection := ⟨[unit 'x'], 0, 1⟩
    s.Valid ∧ s.Clear ∧ italic.apply (italic.apply (run [bold] s)) ≠ run [bold] s ∧
      italic.apply (italic.apply (run [bold] s)) = s := by
  refine ⟨by decide, by simp [Clear, before, after, substring, substringFrom], by decide, by decide⟩

end Toggle

end Markdown
end Rustchat
