import Mathlib.Algebra.Order.Ring.Rat
import Rustchat.Lib.Slice
import Rustchat.Lib.Utf16

/-!
# Markdown in the composer (`components/composer/lib/markdownTransforms.ts`)

The buttons of the composer put delimiters around the selection, prefixes before its lines, or a block around it, and
take them away again when they find them. Texts are sequences of UTF-16 units, as in JavaScript.
-/

open Slice Utf16

namespace Rustchat

namespace Markdown

structure TextSelection where
  text : Units
  selectionStart : ℤ
  selectionEnd : ℤ
deriving DecidableEq

def wrapSelection (s : TextSelection) (left right : Units) : TextSelection :=
  let selectedText := substring s.text s.selectionStart s.selectionEnd
  let newText := substring s.text 0 s.selectionStart ++ left ++ selectedText ++ right ++ substringFrom s.text s.selectionEnd
  if s.selectionStart = s.selectionEnd then
    let newCursorPos := s.selectionStart + left.length
    ⟨newText, newCursorPos, newCursorPos⟩
  else ⟨newText, s.selectionStart + left.length, s.selectionEnd + left.length⟩

def toggleWrap (s : TextSelection) (left right : Units) : TextSelection :=
  let beforeSelection := substring s.text (max 0 (s.selectionStart - left.length)) s.selectionStart
  let afterSelection := substring s.text s.selectionEnd (min s.text.length (s.selectionEnd + right.length))
  if beforeSelection = left ∧ afterSelection = right then
    { text := substring s.text 0 (s.selectionStart - left.length) ++ substring s.text s.selectionStart s.selectionEnd ++
        substringFrom s.text (s.selectionEnd + right.length)
      selectionStart := s.selectionStart - left.length
      selectionEnd := s.selectionEnd - left.length }
  else wrapSelection s left right

def newline : UInt16 := unit '\n'

def toggleLinePrefix (s : TextSelection) (marker : Units) : TextSelection :=
  let beforeSelection := substring s.text 0 s.selectionStart
  let afterSelection := substringFrom s.text s.selectionEnd
  let lineStart := lastIndexOf [newline] beforeSelection + 1
  let lines := (substring s.text lineStart s.selectionEnd).splitOn newline
  let allHavePrefix := lines.all fun line => marker.isPrefixOf line
  let newLines := if allHavePrefix then lines.map (·.drop marker.length) else lines.map (marker ++ ·)
  let lengthDiff : ℤ := if allHavePrefix then -marker.length * lines.length else marker.length * lines.length
  { text := substring beforeSelection 0 lineStart ++ [newline].intercalate newLines ++ afterSelection
    selectionStart := max lineStart (s.selectionStart + if allHavePrefix then -(marker.length : ℤ) else marker.length)
    selectionEnd := s.selectionEnd + lengthDiff }

def asterisk : UInt16 := unit '*'
def tilde : UInt16 := unit '~'
def backtick : UInt16 := unit (Char.ofNat 96)

def makeBold (s : TextSelection) : TextSelection := toggleWrap s [asterisk, asterisk] [asterisk, asterisk]

def makeItalic (s : TextSelection) : TextSelection := toggleWrap s [asterisk] [asterisk]

def makeStrikethrough (s : TextSelection) : TextSelection := toggleWrap s [tilde, tilde] [tilde, tilde]

def makeInlineCode (s : TextSelection) : TextSelection := toggleWrap s [backtick] [backtick]

def fence : Units := [backtick, backtick, backtick]

def makeCodeBlock (s : TextSelection) (language : Units) : TextSelection :=
  let selectedText := substring s.text s.selectionStart s.selectionEnd
  let beforeText := substring s.text (max 0 (s.selectionStart - 4)) s.selectionStart
  let afterText := substring s.text s.selectionEnd (min s.text.length (s.selectionEnd + 4))
  if includes fence beforeText ∧ includes fence afterText then
    let lines := selectedText.splitOn newline
    let firstLine := lines.head?.getD []
    let codeLines := if trim firstLine = language ∨ fence.isPrefixOf firstLine then lines.drop 1 else lines
    let lastLine := codeLines.getLast?.getD []
    let cleanLines := if lastLine = fence then codeLines.dropLast else codeLines
    let removedLength : ℤ := beforeText.length + afterText.length + 6
    { text := substring s.text 0 (s.selectionStart - lastIndexOf fence beforeText - 3) ++
        [newline].intercalate cleanLines ++ substringFrom s.text (s.selectionEnd + indexOf fence afterText + 3)
      selectionStart := s.selectionStart - beforeText.length + 3
      selectionEnd := s.selectionEnd - removedLength + 6 }
  else
    let opening := fence ++ language ++ [newline]
    let closing := newline :: fence
    { text := substring s.text 0 s.selectionStart ++ opening ++ selectedText ++ closing ++ substringFrom s.text s.selectionEnd
      selectionStart := s.selectionStart + opening.length
      selectionEnd := s.selectionEnd + opening.length }

/-- A number of JavaScript, as far as `makeHeading` looks at it. -/
inductive Level
  | nan
  | infinite (negative : Bool)
  | finite (value : ℚ)

/-- `'#'.repeat(Math.min(Math.max(level, 1), 6))` -/
def hashes : Level → Units
  | .nan => []
  | .infinite negative => List.replicate (if negative then 1 else 6) (unit '#')
  | .finite value => List.replicate (min (max value 1) 6).floor.toNat (unit '#')

def makeHeading (s : TextSelection) (level : Level) : TextSelection := toggleLinePrefix s (hashes level ++ [unit ' '])

def makeQuote (s : TextSelection) : TextSelection := toggleLinePrefix s [unit '>', unit ' ']

def makeBulletedList (s : TextSelection) : TextSelection := toggleLinePrefix s [unit '-', unit ' ']

def makeNumberedList (s : TextSelection) : TextSelection := toggleLinePrefix s [unit '1', unit '.', unit ' ']

/-! ### Selections in parts -/

namespace TextSelection

def Valid (s : TextSelection) : Prop := 0 ≤ s.selectionStart ∧ s.selectionStart ≤ s.selectionEnd ∧ s.selectionEnd ≤ s.text.length

instance (s : TextSelection) : Decidable s.Valid := inferInstanceAs (Decidable (_ ∧ _ ∧ _))

def selected (s : TextSelection) : Units := substring s.text s.selectionStart s.selectionEnd

def before (s : TextSelection) : Units := substring s.text 0 s.selectionStart

def after (s : TextSelection) : Units := substringFrom s.text s.selectionEnd

def ofParts (before selected after : Units) : TextSelection :=
  ⟨before ++ selected ++ after, before.length, before.length + selected.length⟩

variable {s : TextSelection} {b x a : Units}

theorem valid_ofParts : (ofParts b x a).Valid := by
  simp only [ofParts, Valid, List.length_append]
  omega

@[simp] theorem before_ofParts : (ofParts b x a).before = b := by
  show substring (b ++ x ++ a) 0 b.length = b
  rw [List.append_assoc, substring_left]

@[simp] theorem selected_ofParts : (ofParts b x a).selected = x := substring_mid

@[simp] theorem after_ofParts : (ofParts b x a).after = a := by
  show substringFrom (b ++ x ++ a) (b.length + x.length) = a
  have h : ((b.length : ℤ) + x.length) = (b ++ x).length := by simp
  rw [h, substringFrom_right]

theorem Valid.exists_parts (h : s.Valid) : ∃ b x a, s = ofParts b x a := by
  obtain ⟨text, start, stop⟩ := s
  obtain ⟨hstart, hle, hstop⟩ := h
  dsimp only at hstart hle hstop
  refine ⟨text.take start.toNat, (text.take stop.toNat).drop start.toNat, text.drop stop.toNat, ?_⟩
  have htake : text.take start.toNat = (text.take stop.toNat).take start.toNat := by
    rw [List.take_take, min_eq_left (by omega)]
  simp only [ofParts, mk.injEq, List.length_take, List.length_drop]
  refine ⟨?_, by omega, by omega⟩
  rw [htake, List.take_append_drop, List.take_append_drop]

end TextSelection

end Markdown
end Rustchat
