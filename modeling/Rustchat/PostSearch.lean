import Rustchat.Mentions
import Rustchat.Unreads

/-!
# The search pattern (`api/v4/posts/search.rs`)

A search looks for messages with `ILIKE` and puts a backslash before the wildcards of the search text. A backslash of
the text itself stays as it is: in the pattern it takes the next character, which may be the backslash of an escaped
wildcard, or the `%` at the end. `PostSearch.search_right_iff` says for which texts the pattern finds the messages that
contain them.
-/

namespace Rustchat

namespace PostSearch

open Unreads (likeChars likeChars_any likeChars_escaped likeChars_plain likeChars_nil)

/-- What the database maps to lower case, character by character. The characters of the pattern language stay what
they are, and no other becomes one of them. -/
structure LowerMap where
  lower : Char → Char
  marks : ∀ c, ∀ mark ∈ ['%', '_', '\\'], lower c = mark ↔ c = mark

def escaped (terms : List Char) : List Char := replaceAll '_' "\\_" (replaceAll '%' "\\%" terms)

def buildSearchTerms (terms : String) : String := "%" ++ String.ofList (escaped terms.toList) ++ "%"

variable (map : LowerMap)

/-- `ILIKE` -/
def ilike (pattern text : String) : Bool := likeChars (pattern.toList.map map.lower) (text.toList.map map.lower)

/-- The message contains the text, in whatever case. -/
def Contains (message text : String) : Prop := text.toList.map map.lower <:+: message.toList.map map.lower

theorem escaped_mark {mark : Char} (h : mark = '%' ∨ mark = '_') (cs : List Char) :
    escaped (mark :: cs) = '\\' :: mark :: escaped cs := by
  rcases h with rfl | rfl <;> rfl

theorem escaped_other {c : Char} (h : c ≠ '%' ∧ c ≠ '_') (cs : List Char) : escaped (c :: cs) = c :: escaped cs := by
  simp [escaped, replaceAll, h.1, h.2]

/-- What follows the first `%` of the pattern, in lower case. -/
def pattern (cs : List Char) : List Char := (escaped cs ++ ['%']).map map.lower

variable {map}

theorem LowerMap.lower_mark {mark : Char} (h : mark ∈ ['%', '_', '\\']) : map.lower mark = mark :=
  (map.marks mark mark h).2 rfl

theorem pattern_mark {mark : Char} (h : mark = '%' ∨ mark = '_') (cs : List Char) :
    pattern map (mark :: cs) = '\\' :: mark :: pattern map cs := by
  have hmark : mark ∈ ['%', '_', '\\'] := by rcases h with rfl | rfl <;> decide
  rw [pattern, escaped_mark h, List.cons_append, List.cons_append, List.map_cons, List.map_cons,
    map.lower_mark (by decide), map.lower_mark hmark, pattern]

theorem pattern_other {c : Char} (h : c ≠ '%' ∧ c ≠ '_') (cs : List Char) :
    pattern map (c :: cs) = map.lower c :: pattern map cs := by
  rw [pattern, escaped_other h, List.cons_append, List.map_cons, pattern]

theorem pattern_nil : pattern map [] = ['%'] := congrArg (· :: []) (map.lower_mark (by decide))

theorem likeChars_pattern_nil (cs : List Char) : likeChars (pattern map []) cs = true := by
  rw [pattern_nil]
  exact likeChars_any.2 ⟨[], List.nil_suffix, rfl⟩

theorem likeChars_pattern_cons {x : Char} (hx : x ≠ '\\') (text : List Char) {cs : List Char} :
    likeChars (pattern map (x :: text)) cs = true ↔
      ∃ rest, cs = map.lower x :: rest ∧ likeChars (pattern map text) rest = true := by
  by_cases hmark : x = '%' ∨ x = '_'
  · have hlower : map.lower x = x := map.lower_mark (by rcases hmark with rfl | rfl <;> decide)
    rw [pattern_mark hmark, hlower]
    cases cs with
    | nil => simp [likeChars_nil]
    | cons c cs =>
      rw [likeChars_escaped]
      constructor
      · rintro ⟨rfl, h⟩
        exact ⟨cs, rfl, h⟩
      · rintro ⟨rest, ⟨⟩, h⟩
        exact ⟨rfl, h⟩
  · have hlower : map.lower x ∉ ['%', '_', '\\'] := fun hl => by
      have hxl := (map.marks x _ hl).1 rfl
      rw [← hxl] at hl
      simp only [List.mem_cons, List.not_mem_nil, or_false] at hl
      rcases hl with hl | hl | hl
      exacts [hmark (.inl hl), hmark (.inr hl), hx hl]
    rw [pattern_other (not_or.1 hmark)]
    cases cs with
    | nil =>
      have hpercent : map.lower x ≠ '%' := fun h => hlower (by rw [h]; decide)
      simp [likeChars_nil hpercent]
    | cons c cs =>
      rw [likeChars_plain hlower]
      constructor
      · rintro ⟨rfl, h⟩
        exact ⟨cs, rfl, h⟩
      · rintro ⟨rest, ⟨⟩, h⟩
        exact ⟨rfl, h⟩

theorem likeChars_pattern_append {u v : List Char} (hu : '\\' ∉ u) {cs : List Char} :
    likeChars (pattern map (u ++ v)) cs = true ↔ ∃ s, cs = u.map map.lower ++ s ∧ likeChars (pattern map v) s = true := by
  induction u generalizing cs with
  | nil => simp
  | cons x u ih =>
    obtain ⟨hx, hu⟩ := not_or.1 (List.mem_cons.not.1 hu)
    rw [List.cons_append, likeChars_pattern_cons (Ne.symm hx)]
    constructor
    · rintro ⟨rest, rfl, h⟩
      obtain ⟨s, rfl, hs⟩ := (ih hu).1 h
      exact ⟨s, rfl, hs⟩
    · rintro ⟨s, rfl, hs⟩
      exact ⟨_, rfl, (ih hu).2 ⟨s, rfl, hs⟩⟩

theorem ilike_iff {terms message : String} : ilike map (buildSearchTerms terms) message = true ↔
    ∃ s, s <:+ message.toList.map map.lower ∧ likeChars (pattern map terms.toList) s = true := by
  have hpattern : (buildSearchTerms terms).toList.map map.lower = '%' :: pattern map terms.toList := by
    have htext : (buildSearchTerms terms).toList = '%' :: (escaped terms.toList ++ ['%']) := by
      simp [buildSearchTerms]
    rw [htext, List.map_cons, map.lower_mark (by decide), pattern]
  rw [ilike, hpattern, likeChars_any]

/-! ### Backslashes -/

/-- A match of a pattern that goes on behind a backslash of the text. It is not longer than the text, and not
the text itself. -/
theorem exists_match_escape (v : List Char)
    (ih : ∀ w, w.length < v.length → ∃ s : List Char, s.length ≤ w.length ∧ likeChars (pattern map w) (s.map map.lower) = true) :
    ∃ s : List Char, s.length ≤ v.length + 1 ∧ likeChars (pattern map ('\\' :: v)) (s.map map.lower) = true ∧
      s.map map.lower ≠ ('\\' :: v).map map.lower := by
  have hescape : map.lower '\\' = '\\' := map.lower_mark (by decide)
  rw [pattern_other (by decide), hescape]
  cases v with
  | nil =>
    -- the `%` at the end is meant literally
    have hpercent : map.lower '%' = '%' := map.lower_mark (by decide)
    refine ⟨['%'], le_rfl, ?_, ?_⟩
    · rw [pattern_nil, List.map_singleton, hpercent]
      rfl
    · simp [hpercent, hescape]
  | cons x w =>
    obtain ⟨s, hlen, hmatch⟩ := ih w (by simp)
    by_cases hany : x = '%'
    · subst x
      -- the backslashes are a pair, and the wildcard is one
      refine ⟨'\\' :: s, by simp; omega, ?_, fun h => ?_⟩
      · rw [pattern_mark (.inl rfl), List.map_cons, hescape, likeChars_escaped]
        exact ⟨rfl, likeChars_any.2 ⟨_, List.suffix_rfl, hmatch⟩⟩
      · have hlength := congrArg List.length h
        simp at hlength
        omega
    by_cases hone : x = '_'
    · subst x
      refine ⟨'\\' :: 'a' :: s, by simp; omega, ?_, fun h => ?_⟩
      · rw [pattern_mark (.inr rfl), List.map_cons, hescape, likeChars_escaped]
        exact ⟨rfl, hmatch⟩
      · have ha : map.lower 'a' = map.lower '_' := (List.cons.inj (List.cons.inj h).2).1
        rw [map.lower_mark (show '_' ∈ ['%', '_', '\\'] by decide)] at ha
        exact absurd ((map.marks 'a' '_' (by decide)).1 ha) (by decide)
    · refine ⟨x :: s, by simp; omega, ?_, fun h => ?_⟩
      · rw [pattern_other ⟨hany, hone⟩, List.map_cons, likeChars_escaped]
        exact ⟨rfl, hmatch⟩
      · have hlength := congrArg List.length h
        simp at hlength
        omega

theorem exists_match (w : List Char) :
    ∃ s : List Char, s.length ≤ w.length ∧ likeChars (pattern map w) (s.map map.lower) = true := by
  induction hn : w.length using Nat.strong_induction_on generalizing w with
  | _ n ih =>
    subst hn
    have ih (v : List Char) (hv : v.length < w.length) := ih v.length hv v rfl
    cases w with
    | nil => exact ⟨[], le_rfl, likeChars_pattern_nil _⟩
    | cons x w =>
      by_cases hx : x = '\\'
      · subst x
        obtain ⟨s, hlen, hmatch, -⟩ := exists_match_escape w fun v hv => ih v (by simp; omega)
        exact ⟨s, hlen, hmatch⟩
      · obtain ⟨s, hlen, hmatch⟩ := ih w (by simp)
        exact ⟨x :: s, by simpa using hlen, (likeChars_pattern_cons hx w).2 ⟨_, rfl, hmatch⟩⟩

/-! ### The law -/

variable (map)

/-- The pattern finds the messages that contain the text exactly if the text has no backslash. -/
theorem search_right_iff (terms : String) :
    (∀ message, ilike map (buildSearchTerms terms) message = true ↔ Contains map message terms) ↔
      '\\' ∉ terms.toList := by
  constructor
  · intro h hmem
    obtain ⟨u, v, hsplit, hu⟩ := List.eq_append_cons_of_mem hmem
    obtain ⟨s, hlen, hmatch, hne⟩ := @exists_match_escape map v fun w _ => exists_match w
    have hlike : ilike map (buildSearchTerms terms) (String.ofList (u ++ s)) = true := by
      refine ilike_iff.2 ⟨_, List.suffix_rfl, ?_⟩
      rw [hsplit, String.toList_ofList, List.map_append]
      exact (likeChars_pattern_append hu).2 ⟨_, rfl, hmatch⟩
    have hcontains := (h _).1 hlike
    rw [Contains, hsplit, String.toList_ofList] at hcontains
    have heq := hcontains.eq_of_length_le (by simp; omega)
    rw [List.map_append, List.map_append] at heq
    exact hne (List.append_cancel_left heq).symm
  · intro h message
    rw [ilike_iff, Contains, List.infix_iff_prefix_suffix]
    refine exists_congr fun s => ?_
    have hstart := @likeChars_pattern_append map _ [] h s
    rw [List.append_nil] at hstart
    rw [hstart, and_comm]
    refine and_congr_left fun _ => ⟨?_, ?_⟩
    · rintro ⟨rest, rfl, -⟩
      exact List.prefix_append ..
    · rintro ⟨rest, rfl⟩
      exact ⟨rest, rfl, likeChars_pattern_nil _⟩

theorem toLower_eq_iff {c mark : Char} (hsmall : mark.val < 'a'.val) (hupper : ¬ ('A'.val ≤ mark.val ∧ mark.val ≤ 'Z'.val)) :
    c.toLower = mark ↔ c = mark := by
  unfold Char.toLower
  split
  · next hc =>
    refine iff_of_false (fun he => ?_) fun he => hupper (he ▸ hc)
    have hval : c.val + ('a'.val - 'A'.val) = mark.val := congrArg Char.val he
    have hsum : (c.val.toNat + 32) % 2 ^ 32 = mark.val.toNat := congrArg UInt32.toNat hval
    have hbounds : 65 ≤ c.val.toNat ∧ c.val.toNat ≤ 90 := hc
    have hmark : mark.val.toNat < 97 := hsmall
    omega
  · exact Iff.rfl

/-- `lower` on ASCII letters. -/
def asciiMap : LowerMap where
  lower := Char.toLower
  marks c mark hmark := by
    simp only [List.mem_cons, List.not_mem_nil, or_false] at hmark
    rcases hmark with rfl | rfl | rfl
    · exact toLower_eq_iff (by decide) (by decide)
    · exact toLower_eq_iff (by decide) (by decide)
    · exact toLower_eq_iff (by decide) (by decide)

/-- A backslash looks for a percent sign at the end of the message. -/
theorem backslash_finds_percent :
    ¬ ∀ terms message, ilike asciiMap (buildSearchTerms terms) message = true ↔ Contains asciiMap message terms := by
  intro h
  have hfound : ilike asciiMap (buildSearchTerms "\\") "100%" = true := by decide +kernel
  have hcontains := (h "\\" "100%").1 hfound
  have hmem : '\\' ∈ ("100%".toList.map Char.toLower) := hcontains.subset (by decide +kernel)
  exact absurd hmem (by decide +kernel)

end PostSearch

end Rustchat
