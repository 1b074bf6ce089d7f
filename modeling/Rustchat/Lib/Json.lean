import Mathlib.Algebra.Ring.Int.Defs
import Mathlib.Data.List.Basic
import Mathlib.Data.List.TakeWhile

/-!
# JSON documents and their compact text

`Json.render` writes a document without blanks, with the escapes `\"`, `\\`, `\b`, `\f`, `\n`, `\r`,
`\t` and `\u00xx` for the other control characters; a number is an integer, or has a fraction or an
exponent and stands for itself as it is written. `Json.parse` reads these texts. `parse_render` is the
round trip, from which rendering is injective and documents have decidable equality.
-/

/-- A number with a fraction or an exponent, as it is written. -/
structure Fraction where
  negative : Bool
  whole : Nat
  decimals : List Char
  exponent : Option Int
  digits : ∀ c ∈ decimals, c.isDigit = true
  marked : decimals ≠ [] ∨ exponent.isSome = true

inductive Json where
  | null
  | bool (b : Bool)
  | num (n : Int)
  | frac (f : Fraction)
  | str (s : String)
  | arr (items : List Json)
  | obj (fields : List (String × Json))

namespace Json

def get? (key : String) : Json → Option Json
  | obj fields => fields.lookup key
  | _ => none

theorem get?_obj (fields : List (String × Json)) (key : String) : (Json.obj fields).get? key = fields.lookup key := rfl

/-- Enters a field among fields that are sorted by key, or replaces the value it has. -/
def insertField (key : String) (value : Json) : List (String × Json) → List (String × Json)
  | [] => [(key, value)]
  | (k, v) :: fields =>
    if key < k then (key, value) :: (k, v) :: fields
    else if key = k then (key, value) :: fields
    else (k, v) :: insertField key value fields

def asStr : Json → Option String
  | .str s => some s
  | _ => none

def asBool : Json → Option Bool
  | .bool b => some b
  | _ => none

/-- Whole numbers of `w` bits. -/
def asInt (w : Nat) : Json → Option Int
  | .num n => if -2 ^ (w - 1) ≤ n ∧ n < 2 ^ (w - 1) then some n else none
  | _ => none

/-- Whole numbers of `w` bits without a sign. -/
def asNat (w : Nat) : Json → Option Nat
  | .num n => if 0 ≤ n ∧ n < 2 ^ w then some n.toNat else none
  | _ => none

def asArr : Json → Option (List Json)
  | .arr items => some items
  | _ => none

def asList {α : Type} (read : Json → Option α) (v : Json) : Option (List α) := v.asArr.bind (·.mapM read)

theorem asList_map {α : Type} {read : Json → Option α} (write : α → Json) (h : ∀ x, read (write x) = some x)
    (xs : List α) : asList read (.arr (xs.map write)) = some xs := by
  show (xs.map write).mapM read = some xs
  induction xs with
  | nil => rfl
  | cons x xs ih => rw [List.map_cons, List.mapM_cons, ih, h]; rfl

def field {α : Type} (key : String) (read : Json → Option α) (v : Json) : Option α := (v.get? key).bind read

def optField {α : Type} (key : String) (read : Json → Option α) (v : Json) : Option (Option α) :=
  match v.get? key with
  | none | some .null => some none
  | some x => (read x).map some

def defField {α : Type} (key : String) (read : Json → Option α) (default : α) (v : Json) : Option α :=
  match v.get? key with
  | none => some default
  | some x => read x

def ofOpt {α : Type} (write : α → Json) : Option α → Json
  | some x => write x
  | none => .null

def escape (c : Char) : List Char :=
  if c = '"' then ['\\', '"']
  else if c = '\\' then ['\\', '\\']
  else if c = '\x08' then ['\\', 'b']
  else if c = '\x0c' then ['\\', 'f']
  else if c = '\n' then ['\\', 'n']
  else if c = '\r' then ['\\', 'r']
  else if c = '\t' then ['\\', 't']
  else if c.toNat < 32 then ['\\', 'u', '0', '0', (c.toNat / 16).digitChar, (c.toNat % 16).digitChar]
  else [c]

def renderString (s : String) : List Char := '"' :: s.toList.flatMap escape ++ ['"']

def renderInt (n : Int) : List Char :=
  if n < 0 then '-' :: Nat.toDigits 10 n.natAbs else Nat.toDigits 10 n.natAbs

def renderDecimals (decimals : List Char) : List Char := if decimals = [] then [] else '.' :: decimals

def renderExponent : Option Int → List Char
  | none => []
  | some e => 'e' :: renderInt e

def renderFraction (f : Fraction) : List Char :=
  (if f.negative then ['-'] else []) ++
    (Nat.toDigits 10 f.whole ++ (renderDecimals f.decimals ++ renderExponent f.exponent))

mutual
def renderChars : Json → List Char
  | null => ['n', 'u', 'l', 'l']
  | bool true => ['t', 'r', 'u', 'e']
  | bool false => ['f', 'a', 'l', 's', 'e']
  | num n => renderInt n
  | frac f => renderFraction f
  | str s => renderString s
  | arr [] => ['[', ']']
  | arr (item :: items) => '[' :: renderChars item ++ renderItems items
  | obj [] => ['{', '}']
  | obj ((key, value) :: fields) =>
    '{' :: renderString key ++ ':' :: renderChars value ++ renderFields fields

def renderItems : List Json → List Char
  | [] => [']']
  | item :: items => ',' :: renderChars item ++ renderItems items

def renderFields : List (String × Json) → List Char
  | [] => ['}']
  | (key, value) :: fields =>
    ',' :: renderString key ++ ':' :: renderChars value ++ renderFields fields
end

def render (v : Json) : String := String.ofList (renderChars v)

/-! ### Reading -/

def hexVal (c : Char) : Option Nat :=
  if '0' ≤ c ∧ c ≤ '9' then some (c.toNat - 48)
  else if 'a' ≤ c ∧ c ≤ 'f' then some (c.toNat - 87)
  else if 'A' ≤ c ∧ c ≤ 'F' then some (c.toNat - 55)
  else none

def unescape : Char → Option Char
  | '"' => some '"'
  | '\\' => some '\\'
  | '/' => some '/'
  | 'b' => some '\x08'
  | 'f' => some '\x0c'
  | 'n' => some '\n'
  | 'r' => some '\r'
  | 't' => some '\t'
  | _ => none

def readString : List Char → Option (List Char × List Char)
  | [] => none
  | '"' :: cs => some ([], cs)
  | '\\' :: 'u' :: a :: b :: c :: d :: cs => do
    let a ← hexVal a
    let b ← hexVal b
    let c ← hexVal c
    let d ← hexVal d
    let (s, cs) ← readString cs
    some (Char.ofNat (((16 * a + b) * 16 + c) * 16 + d) :: s, cs)
  | '\\' :: e :: cs => do
    let c ← unescape e
    let (s, cs) ← readString cs
    some (c :: s, cs)
  | c :: cs => do
    let (s, cs) ← readString cs
    some (c :: s, cs)

def readDigits (cs : List Char) : Option (Nat × List Char) :=
  match cs.takeWhile Char.isDigit with
  | [] => none
  | ds => some (Nat.ofDigitChars 10 ds 0, cs.dropWhile Char.isDigit)

def readInt : List Char → Option (Int × List Char)
  | '-' :: cs => (readDigits cs).map fun (n, cs) => (-(n : Int), cs)
  | cs => (readDigits cs).map fun (n, cs) => ((n : Int), cs)

def readDecimals : List Char → Option ({ds : List Char // ∀ c ∈ ds, c.isDigit = true} × List Char)
  | '.' :: cs =>
    if cs.takeWhile Char.isDigit = [] then none
    else some (⟨cs.takeWhile Char.isDigit, fun _ => List.mem_takeWhile_imp⟩, cs.dropWhile Char.isDigit)
  | cs => some (⟨[], nofun⟩, cs)

def readSigned : List Char → Option (Int × List Char)
  | '+' :: cs => (readDigits cs).map fun (n, cs) => ((n : Int), cs)
  | cs => readInt cs

def readExponent : List Char → Option (Option Int × List Char)
  | 'e' :: cs | 'E' :: cs => (readSigned cs).map fun (e, cs) => (some e, cs)
  | cs => some (none, cs)

def ofParts (negative : Bool) (whole : Nat) (decimals : {ds : List Char // ∀ c ∈ ds, c.isDigit = true})
    (exponent : Option Int) : Json :=
  if h : decimals.1 ≠ [] ∨ exponent.isSome = true then .frac ⟨negative, whole, decimals.1, exponent, decimals.2, h⟩
  else .num (if negative then -whole else whole)

def readUnsigned (negative : Bool) (cs : List Char) : Option (Json × List Char) := do
  let (whole, cs) ← readDigits cs
  let (decimals, cs) ← readDecimals cs
  let (exponent, cs) ← readExponent cs
  some (ofParts negative whole decimals exponent, cs)

def readNumber : List Char → Option (Json × List Char)
  | '-' :: cs => readUnsigned true cs
  | cs => readUnsigned false cs

def readField (value : List Char → Option (Json × List Char)) :
    List Char → Option ((String × Json) × List Char)
  | '"' :: cs => do
    let (key, cs) ← readString cs
    match cs with
    | ':' :: cs =>
      let (v, cs) ← value cs
      some ((String.ofList key, v), cs)
    | _ => none
  | _ => none

def readSeq {α : Type} (close : Char) (item : List Char → Option (α × List Char)) :
    Nat → List Char → Option (List α × List Char)
  | 0, _ => none
  | n + 1, cs => do
    let (x, cs) ← item cs
    match cs with
    | [] => none
    | c :: cs =>
      if c = close then some ([x], cs)
      else if c = ',' then do
        let (xs, cs) ← readSeq close item n cs
        some (x :: xs, cs)
      else none

/-- The items after an opening bracket, if any, up to the closing one. -/
def readList {α : Type} (close : Char) (item : List Char → Option (α × List Char)) (n : Nat)
    (cs : List Char) : Option (List α × List Char) :=
  if cs.head? = some close then some ([], cs.tail) else readSeq close item n cs

def readValue : Nat → List Char → Option (Json × List Char)
  | 0, _ => none
  | _ + 1, [] => none
  | n + 1, c :: cs =>
    if c = 'n' then ((cs.dropPrefix? ['u', 'l', 'l']).map fun cs => (null, cs))
    else if c = 't' then ((cs.dropPrefix? ['r', 'u', 'e']).map fun cs => (bool true, cs))
    else if c = 'f' then ((cs.dropPrefix? ['a', 'l', 's', 'e']).map fun cs => (bool false, cs))
    else if c = '"' then (readString cs).map fun (s, cs) => (str (String.ofList s), cs)
    else if c = '[' then (readList ']' (readValue n) n cs).map fun (items, cs) => (arr items, cs)
    else if c = '{' then
      (readList '}' (readField (readValue n)) n cs).map fun (fields, cs) => (obj fields, cs)
    else readNumber (c :: cs)

/-- Every nested value takes at least one character, so the length of the text is enough fuel. -/
def parse (text : String) : Option Json :=
  match readValue (text.toList.length + 1) text.toList with
  | some (v, []) => some v
  | _ => none

/-! ### The round trip -/

theorem hexVal_digitChar : ∀ d < 16, hexVal d.digitChar = some d := by decide

theorem readString_escape (c : Char) (cs : List Char) :
    readString (escape c ++ cs) = (readString cs).map fun p => (c :: p.1, p.2) := by
  unfold escape
  split_ifs with h1 h2 h3 h4 h5 h6 h7 h8
  iterate 7 subst c; cases h : readString cs <;> simp [readString, unescape, h]
  · have ha := hexVal_digitChar (c.toNat / 16) (by omega)
    have hb := hexVal_digitChar (c.toNat % 16) (by omega)
    have hc : Char.ofNat (((16 * 0 + 0) * 16 + c.toNat / 16) * 16 + c.toNat % 16) = c := by
      rw [show ((16 * 0 + 0) * 16 + c.toNat / 16) * 16 + c.toNat % 16 = c.toNat by omega,
        Char.ofNat_toNat]
    have h0 : hexVal '0' = some 0 := rfl
    simp only [List.cons_append, List.nil_append, readString, h0, ha, hb, Option.bind_eq_bind,
      Option.bind_some, hc]
    cases readString cs <;> rfl
  · rw [List.singleton_append, readString]
    · cases readString cs <;> rfl
    · exact h1
    · exact fun _ _ _ _ _ h => absurd h h2
    · exact fun _ _ h => absurd h h2

theorem readString_renderString (s : String) (cs : List Char) :
    ∃ t, renderString s = '"' :: t ∧ readString (t ++ cs) = some (s.toList, cs) := by
  refine ⟨_, rfl, ?_⟩
  show readString (s.toList.flatMap escape ++ ['"'] ++ cs) = _
  rw [List.append_assoc]
  generalize s.toList = l
  induction l with
  | nil => simp [readString]
  | cons c l ih => rw [List.flatMap_cons, List.append_assoc, readString_escape, ih]; rfl

def Halts (cs : List Char) : Prop := ∀ c ∈ cs.head?, c.isDigit = false

theorem halts_cons {c : Char} (h : c.isDigit = false) (cs : List Char) : Halts (c :: cs) := by
  intro d hd; cases hd; exact h

def Ends (cs : List Char) : Prop := ∀ c ∈ cs.head?, c.isDigit = false ∧ c ∉ ['.', 'e', 'E']

theorem ends_cons {c : Char} (h : c.isDigit = false ∧ c ∉ ['.', 'e', 'E']) (cs : List Char) : Ends (c :: cs) := by
  intro d hd; cases hd; exact h

theorem Ends.halts {cs : List Char} (h : Ends cs) : Halts cs := fun c hc => (h c hc).1

theorem takeWhile_digits {ds cs : List Char} (hd : ∀ c ∈ ds, c.isDigit = true) (h : Halts cs) :
    (ds ++ cs).takeWhile Char.isDigit = ds ∧ (ds ++ cs).dropWhile Char.isDigit = cs := by
  rw [List.takeWhile_append_of_pos hd, List.dropWhile_append_of_pos hd]
  cases cs with
  | nil => simp
  | cons c cs =>
    rw [List.takeWhile_cons, List.dropWhile_cons, h c rfl]
    simp

theorem readDigits_toDigits (n : Nat) {cs : List Char} (h : Halts cs) :
    readDigits (Nat.toDigits 10 n ++ cs) = some (n, cs) := by
  have hd : ∀ c ∈ Nat.toDigits 10 n, c.isDigit = true :=
    fun c hc => Nat.isDigit_of_mem_toDigits (by decide) (by decide) hc
  rw [readDigits, (takeWhile_digits hd h).1, (takeWhile_digits hd h).2]
  split
  · next hnil => exact absurd hnil Nat.toDigits_ne_nil
  · rw [Nat.ofDigitChars_ten_toDigits]

theorem digit_ne {c : Char} (h : c.isDigit = true) : ∀ d : Char, d.isDigit = false → c ≠ d := by
  intro d hd he; rw [he, hd] at h; cases h

theorem renderInt_cons (n : Int) :
    ∃ c t, renderInt n = c :: t ∧ (c = '-' ∨ c.isDigit = true) := by
  unfold renderInt
  split_ifs
  · exact ⟨_, _, rfl, .inl rfl⟩
  · cases h : Nat.toDigits 10 n.natAbs with
    | nil => exact absurd h Nat.toDigits_ne_nil
    | cons c t =>
      refine ⟨c, t, rfl, .inr (Nat.isDigit_of_mem_toDigits (b := 10) (n := n.natAbs) ?_ ?_ ?_)⟩
      · decide
      · decide
      · rw [h]; exact List.mem_cons_self

theorem readInt_renderInt (n : Int) {cs : List Char} (h : Halts cs) :
    readInt (renderInt n ++ cs) = some (n, cs) := by
  unfold renderInt
  split_ifs with hn
  · rw [List.cons_append, readInt, readDigits_toDigits _ h]
    simp only [Option.map_some, Option.some.injEq, Prod.mk.injEq, and_true]
    omega
  · have hd := readDigits_toDigits n.natAbs h
    have hne : ∀ t, Nat.toDigits 10 n.natAbs ++ cs ≠ '-' :: t := by
      intro t ht
      cases hl : Nat.toDigits 10 n.natAbs with
      | nil => exact absurd hl Nat.toDigits_ne_nil
      | cons c l =>
        rw [hl] at ht
        have hc : c.isDigit = true :=
          Nat.isDigit_of_mem_toDigits (b := 10) (n := n.natAbs) (by decide) (by decide)
            (by rw [hl]; exact List.mem_cons_self)
        exact digit_ne hc '-' (by decide) (List.cons.inj ht).1
    rw [readInt, hd]
    · simp only [Option.map_some, Option.some.injEq, Prod.mk.injEq, and_true]
      omega
    · exact hne

theorem renderInt_eq (n : Int) :
    renderInt n = (if decide (n < 0) = true then ['-'] else []) ++ Nat.toDigits 10 n.natAbs := by
  unfold renderInt
  by_cases hn : n < 0 <;> simp [hn]

theorem toDigits_cons (n : Nat) : ∃ c t, Nat.toDigits 10 n = c :: t ∧ c.isDigit = true := by
  cases h : Nat.toDigits 10 n with
  | nil => exact absurd h Nat.toDigits_ne_nil
  | cons c t =>
    exact ⟨c, t, rfl, Nat.isDigit_of_mem_toDigits (b := 10) (n := n) (by decide) (by decide)
      (by rw [h]; exact List.mem_cons_self)⟩

theorem readExponent_render (e : Option Int) {cs : List Char} (h : Ends cs) :
    readExponent (renderExponent e ++ cs) = some (e, cs) := by
  cases e with
  | none =>
    rw [renderExponent, List.nil_append, readExponent]
    · exact fun cs' hcs => (h 'e' (by rw [hcs]; rfl)).2 (by decide)
    · exact fun cs' hcs => (h 'E' (by rw [hcs]; rfl)).2 (by decide)
  | some e =>
    obtain ⟨c, t, ht, hc⟩ := renderInt_cons e
    have hplus : ∀ t', renderInt e ++ cs ≠ '+' :: t' := by
      intro t' heq
      rw [ht] at heq
      have hc' : c = '+' := (List.cons.inj heq).1
      rcases hc with rfl | hc
      · cases hc'
      · exact digit_ne hc '+' (by decide) hc'
    rw [renderExponent, List.cons_append, readExponent, readSigned, readInt_renderInt e h.halts]
    · rfl
    · exact hplus

theorem exponent_halts (e : Option Int) {cs : List Char} (h : Ends cs) :
    Halts (renderExponent e ++ cs) ∧ (renderExponent e ++ cs).head? ≠ some '.' := by
  cases e with
  | none => exact ⟨h.halts, fun hc => (h '.' hc).2 (by decide)⟩
  | some e => exact ⟨halts_cons (by decide) _, by simp [renderExponent]⟩

theorem readDecimals_render {ds cs : List Char} (hd : ∀ c ∈ ds, c.isDigit = true) (h : Halts cs)
    (hpoint : cs.head? ≠ some '.') : readDecimals (renderDecimals ds ++ cs) = some (⟨ds, hd⟩, cs) := by
  unfold renderDecimals
  split_ifs with hds
  · subst hds
    rw [List.nil_append, readDecimals]
    exact fun cs' hcs => hpoint (by rw [hcs]; rfl)
  · obtain ⟨ht, hr⟩ := takeWhile_digits hd h
    rw [List.cons_append, readDecimals]
    simp only [ht, hr, if_neg hds]

theorem decimals_halts (ds : List Char) {cs : List Char} (h : Halts cs) : Halts (renderDecimals ds ++ cs) := by
  unfold renderDecimals
  split_ifs
  · exact h
  · exact halts_cons (by decide) _

theorem readUnsigned_render (negative : Bool) (whole : Nat) {ds : List Char} (hd : ∀ c ∈ ds, c.isDigit = true)
    (e : Option Int) {cs : List Char} (h : Ends cs) :
    readUnsigned negative (Nat.toDigits 10 whole ++ (renderDecimals ds ++ (renderExponent e ++ cs))) =
      some (ofParts negative whole ⟨ds, hd⟩ e, cs) := by
  obtain ⟨hhalts, hpoint⟩ := exponent_halts e h
  rw [readUnsigned, readDigits_toDigits whole (decimals_halts ds hhalts)]
  simp only [Option.bind_eq_bind, Option.bind_some, readDecimals_render hd hhalts hpoint, readExponent_render e h]

theorem readNumber_signed (negative : Bool) (whole : Nat) (cs : List Char) :
    readNumber ((if negative = true then ['-'] else []) ++ (Nat.toDigits 10 whole ++ cs)) =
      readUnsigned negative (Nat.toDigits 10 whole ++ cs) := by
  cases negative with
  | true => rfl
  | false =>
    obtain ⟨c, t, ht, hc⟩ := toDigits_cons whole
    rw [ht]
    show readNumber (c :: (t ++ cs)) = _
    rw [readNumber]
    · rfl
    · exact fun cs' hcs => digit_ne hc '-' (by decide) (List.cons.inj hcs).1

theorem readNumber_renderInt (n : Int) {cs : List Char} (h : Ends cs) :
    readNumber (renderInt n ++ cs) = some (num n, cs) := by
  have hread := @readUnsigned_render (decide (n < 0)) n.natAbs [] nofun none cs h
  rw [renderInt_eq, List.append_assoc, readNumber_signed]
  refine hread.trans ?_
  rw [ofParts, dif_neg (by simp)]
  congr 3
  split_ifs with hn
  · have := of_decide_eq_true hn
    omega
  · have hn' : ¬ n < 0 := fun hlt => hn (decide_eq_true hlt)
    omega

theorem readNumber_renderFraction (f : Fraction) {cs : List Char} (h : Ends cs) :
    readNumber (renderFraction f ++ cs) = some (frac f, cs) := by
  rw [renderFraction, List.append_assoc, List.append_assoc, List.append_assoc, readNumber_signed,
    readUnsigned_render f.negative f.whole f.digits f.exponent h, ofParts, dif_pos f.marked]

theorem renderFraction_cons (f : Fraction) :
    ∃ c t, renderFraction f = c :: t ∧ (c = '-' ∨ c.isDigit = true) := by
  unfold renderFraction
  split_ifs
  · exact ⟨_, _, rfl, .inl rfl⟩
  · obtain ⟨c, t, ht, hc⟩ := toDigits_cons f.whole
    exact ⟨c, _, by rw [ht]; rfl, .inr hc⟩

theorem renderItems_eq (items : List Json) :
    renderItems items = items.flatMap (fun v => ',' :: renderChars v) ++ [']'] := by
  induction items with
  | nil => rfl
  | cons v items ih => simp [renderItems, ih]

def renderField (f : String × Json) : List Char := renderString f.1 ++ ':' :: renderChars f.2

theorem renderFields_eq (fields : List (String × Json)) :
    renderFields fields = fields.flatMap (fun f => ',' :: renderField f) ++ ['}'] := by
  induction fields with
  | nil => rfl
  | cons f fields ih => simp [renderFields, renderField, ih]

section Seq

variable {α : Type} (text : α → List Char) {xs : List α} {x : α}

theorem length_le_flatMap (xs : List α) : xs.length ≤ (xs.flatMap fun y => ',' :: text y).length := by
  induction xs with
  | nil => exact Nat.le_refl 0
  | cons y xs ih => simp only [List.flatMap_cons, List.length_append, List.length_cons]; omega

theorem length_lt_flatMap (h : x ∈ xs) :
    (text x).length < (xs.flatMap fun y => ',' :: text y).length := by
  induction xs with
  | nil => cases h
  | cons y xs ih =>
    simp only [List.flatMap_cons, List.length_append, List.length_cons]
    rcases List.mem_cons.1 h with rfl | h
    · omega
    · have := ih h; omega

theorem readSeq_render {item : List Char → Option (α × List Char)} {close : Char}
    (hd : close.isDigit = false ∧ close ∉ ['.', 'e', 'E']) (hc : close ≠ ',') {n : Nat} (hn : xs.length < n) (cs : List Char)
    (h : ∀ y ∈ x :: xs, ∀ cs, Ends cs → item (text y ++ cs) = some (y, cs)) :
    readSeq close item n (text x ++ (xs.flatMap (fun y => ',' :: text y) ++ close :: cs)) =
      some (x :: xs, cs) := by
  induction xs generalizing x n with
  | nil =>
    obtain ⟨n, rfl⟩ := Nat.exists_eq_succ_of_ne_zero (Nat.ne_of_gt hn)
    rw [readSeq, List.flatMap_nil, List.nil_append, h x List.mem_cons_self _ (ends_cons hd cs)]
    simp
  | cons y xs ih =>
    obtain ⟨n, rfl⟩ := Nat.exists_eq_succ_of_ne_zero (Nat.ne_of_gt (Nat.lt_of_le_of_lt (Nat.zero_le _) hn))
    have hlen : xs.length < n := by
      rw [List.length_cons] at hn; omega
    have htail := ih hlen fun z hz => h z (List.mem_cons_of_mem _ hz)
    rw [readSeq, List.flatMap_cons, List.append_assoc, List.cons_append,
      h x List.mem_cons_self _ (ends_cons (by decide) _)]
    simp [hc.symm, htail]

end Seq

theorem readField_render {value : List Char → Option (Json × List Char)} {f : String × Json} {cs : List Char}
    (h : value (renderChars f.2 ++ cs) = some (f.2, cs)) :
    readField value (renderField f ++ cs) = some (f, cs) := by
  obtain ⟨t, ht, hr⟩ := readString_renderString f.1 (':' :: renderChars f.2 ++ cs)
  rw [renderField, ht, List.append_assoc, List.cons_append, readField, hr]
  simp [h]

theorem number_cons {v : Json} (h : (∃ n, v = num n) ∨ ∃ f, v = frac f) :
    ∃ c t, renderChars v = c :: t ∧ (c = '-' ∨ c.isDigit = true) := by
  rcases h with ⟨n, rfl⟩ | ⟨f, rfl⟩
  · exact renderInt_cons n
  · exact renderFraction_cons f

theorem number_ne {c : Char} (hc : c = '-' ∨ c.isDigit = true) (d : Char) (hd : d.isDigit = false) (hm : d ≠ '-') : c ≠ d := by
  rcases hc with rfl | hc
  · exact hm.symm
  · exact digit_ne hc d hd

theorem renderChars_ne (v : Json) (cs : List Char) : (renderChars v ++ cs).head? ≠ some ']' := by
  have hnumber (h : (∃ n, v = num n) ∨ ∃ f, v = frac f) : (renderChars v ++ cs).head? ≠ some ']' := by
    obtain ⟨c, t, ht, hc⟩ := number_cons h
    rw [ht]
    exact fun h => number_ne hc ']' (by decide) (by decide) (Option.some.inj h)
  intro h
  cases v with
  | null => simp [renderChars] at h
  | bool b => cases b <;> simp [renderChars] at h
  | num n => exact hnumber (.inl ⟨n, rfl⟩) h
  | frac f => exact hnumber (.inr ⟨f, rfl⟩) h
  | str s => simp [renderChars, renderString] at h
  | arr items => cases items <;> simp [renderChars] at h
  | obj fields => cases fields <;> simp [renderChars] at h

theorem renderField_ne (f : String × Json) (cs : List Char) : (renderField f ++ cs).head? ≠ some '}' := by
  simp [renderField, renderString]

theorem renderChars_ne_nil (v : Json) : renderChars v ≠ [] := by
  intro h
  cases v with
  | null => cases h
  | bool b => cases b <;> cases h
  | num n =>
    obtain ⟨c, t, ht, -⟩ := renderInt_cons n
    rw [renderChars, ht] at h; cases h
  | frac f =>
    obtain ⟨c, t, ht, -⟩ := renderFraction_cons f
    rw [renderChars, ht] at h; cases h
  | str s => cases h
  | arr items => cases items <;> cases h
  | obj fields =>
    cases fields with
    | nil => cases h
    | cons f fields => cases h

theorem readValue_number (n : Nat) {v : Json} (hv : (∃ n, v = num n) ∨ ∃ f, v = frac f) {cs : List Char}
    (h : readNumber (renderChars v ++ cs) = some (v, cs)) : readValue (n + 1) (renderChars v ++ cs) = some (v, cs) := by
  obtain ⟨c, t, ht, hc⟩ := number_cons hv
  have hne := number_ne hc
  rw [ht, List.cons_append] at h ⊢
  rw [readValue, if_neg (hne _ (by decide) (by decide)), if_neg (hne _ (by decide) (by decide)),
    if_neg (hne _ (by decide) (by decide)), if_neg (hne _ (by decide) (by decide)),
    if_neg (hne _ (by decide) (by decide)), if_neg (hne _ (by decide) (by decide)), h]

theorem readValue_render (n : Nat) (v : Json) (cs : List Char) (hn : (renderChars v).length ≤ n)
    (hcs : Ends cs) : readValue n (renderChars v ++ cs) = some (v, cs) := by
  induction n generalizing v cs with
  | zero => exact absurd (List.length_eq_zero_iff.1 (Nat.le_zero.1 hn)) (renderChars_ne_nil v)
  | succ n ih =>
    cases v with
    | null => simp [renderChars, readValue, List.dropPrefix?]
    | bool b => cases b <;> simp [renderChars, readValue, List.dropPrefix?]
    | num i => exact readValue_number n (.inl ⟨i, rfl⟩) (readNumber_renderInt i hcs)
    | frac f => exact readValue_number n (.inr ⟨f, rfl⟩) (readNumber_renderFraction f hcs)
    | str s =>
      obtain ⟨t, ht, hr⟩ := readString_renderString s cs
      rw [renderChars, ht]
      simp [readValue, hr]
    | arr items =>
      cases items with
      | nil => simp [renderChars, readValue, readList]
      | cons v items =>
        simp only [renderChars, renderItems_eq, List.length_append, List.length_cons] at hn
        have hfit : ∀ w ∈ v :: items, ∀ cs, Ends cs → readValue n (renderChars w ++ cs) = some (w, cs) := by
          intro w hw cs hcs
          rcases List.mem_cons.1 hw with rfl | hw
          · exact ih w cs (by omega) hcs
          · have := length_lt_flatMap renderChars hw
            exact ih w cs (by omega) hcs
        have hlen := length_le_flatMap renderChars items
        have hseq := readSeq_render renderChars (n := n) (show (']' : Char).isDigit = false ∧ ']' ∉ ['.', 'e', 'E'] by decide) (by decide) (by omega) cs hfit
        have htext : renderChars (arr (v :: items)) ++ cs = '[' :: (renderChars v ++
            (items.flatMap (fun w => ',' :: renderChars w) ++ ']' :: cs)) := by
          simp [renderChars, renderItems_eq]
        rw [htext, readValue]
        simp only [Char.reduceEq, ↓reduceIte, readList, if_neg (renderChars_ne v _), hseq, Option.map_some]
    | obj fields =>
      cases fields with
      | nil => simp [renderChars, readValue, readList]
      | cons f fields =>
        have htext : renderChars (obj (f :: fields)) = '{' :: (renderField f ++
            (fields.flatMap (fun g => ',' :: renderField g) ++ ['}'])) := by
          simp [renderChars, renderFields_eq, renderField]
        rw [htext] at hn
        simp only [List.length_append, List.length_cons] at hn
        have hvalue : ∀ g : String × Json, (renderChars g.2).length ≤ (renderField g).length := by
          intro g; simp only [renderField, List.length_append, List.length_cons]; omega
        have hfit : ∀ g ∈ f :: fields, ∀ cs, Ends cs →
            readField (readValue n) (renderField g ++ cs) = some (g, cs) := by
          intro g hg cs hcs
          have hle := hvalue g
          rcases List.mem_cons.1 hg with rfl | hg
          · exact readField_render (ih g.2 cs (by omega) hcs)
          · have := length_lt_flatMap renderField hg
            exact readField_render (ih g.2 cs (by omega) hcs)
        have hlen := length_le_flatMap renderField fields
        have hseq := readSeq_render renderField (n := n) (show ('}' : Char).isDigit = false ∧ '}' ∉ ['.', 'e', 'E'] by decide) (by decide) (by omega) cs hfit
        rw [htext, List.cons_append, List.append_assoc, List.append_assoc, List.singleton_append, readValue]
        simp only [Char.reduceEq, ↓reduceIte, readList, if_neg (renderField_ne f _), hseq, Option.map_some]

theorem parse_render (v : Json) : parse (render v) = some v := by
  have h := readValue_render ((renderChars v).length + 1) v [] (Nat.le_succ _) fun c hc => by cases hc
  rw [List.append_nil] at h
  rw [parse, render, String.toList_ofList, h]

theorem render_injective : Function.Injective render := by
  intro v w h
  have hp := congrArg parse h
  rw [parse_render, parse_render] at hp
  exact Option.some.inj hp

instance : DecidableEq Json := fun v w => decidable_of_iff (render v = render w) render_injective.eq_iff

example : parse "[1,-20,\"x\\n\\\"\",null]" = some (arr [num 1, num (-20), str "x\n\"", null]) := by decide

end Json
