import Mathlib.Data.List.Basic
import Mathlib.Data.List.Nodup

/-!
# HTML fragments

`Html.serialize` writes a sequence of nodes: text with `&`, `<`, `>` and the non-breaking space escaped,
attribute values in double quotes with `&`, `"` and the non-breaking space escaped. `Html.parse` reads any
text: the tokenizer goes through the states of the standard, character by character, and the tree is built
with a stack of open elements. `parse_serialize` is the round trip; `startTags_parse` says that the tree
shows every start tag the tokenizer emits, and `tagsFrom_inTag` that a tag keeps the attributes it has.

The input is taken with its newlines normalized and without NUL. Of the character references those are
known that `serialize` writes, others are left as text. Comments and document types are skipped. Start and
end tags are never implied, and no element holds raw text.
-/

/-- A sequence of nodes. A text node is a run of characters. -/
inductive Html where
  | nil
  | char (c : Char) (next : Html)
  | element (name : List Char) (attrs : List (List Char × List Char)) (children next : Html)
deriving DecidableEq

namespace Html

abbrev Attrs := List (List Char × List Char)

def append : Html → Html → Html
  | nil, e => e
  | char c next, e => char c (append next e)
  | element name attrs children next, e => element name attrs children (append next e)

@[simp] theorem append_nil (d : Html) : d.append nil = d := by
  induction d with
  | nil => rfl
  | char c next ih => rw [append, ih]
  | element name attrs children next _ ih => rw [append, ih]

theorem append_assoc (d e f : Html) : (d.append e).append f = d.append (e.append f) := by
  induction d with
  | nil => rfl
  | char c next ih => rw [append, append, append, ih]
  | element name attrs children next _ ih => rw [append, append, append, ih]

def startTags : Html → List (List Char × Attrs)
  | nil => []
  | char _ next => next.startTags
  | element name attrs children next => (name, attrs) :: (children.startTags ++ next.startTags)

theorem startTags_append (d e : Html) : (d.append e).startTags = d.startTags ++ e.startTags := by
  induction d with
  | nil => rfl
  | char c next ih => exact ih
  | element name attrs children next _ ih => rw [append, startTags, startTags, ih]; simp

def voidNames : List (List Char) :=
  ["area", "base", "br", "col", "embed", "hr", "img", "input", "link", "meta", "source", "track", "wbr"].map String.toList

def escapeText : Char → List Char
  | '&' => "&amp;".toList
  | '<' => "&lt;".toList
  | '>' => "&gt;".toList
  | '\u00A0' => "&nbsp;".toList
  | c => [c]

def escapeAttr : Char → List Char
  | '&' => "&amp;".toList
  | '"' => "&quot;".toList
  | '\u00A0' => "&nbsp;".toList
  | c => [c]

def attrOpen (name : List Char) : List Char := ' ' :: name ++ ['=', '"']

def writeAttr (a : List Char × List Char) : List Char := attrOpen a.1 ++ a.2.flatMap escapeAttr ++ ['"']

def startTag (name : List Char) (attrs : Attrs) : List Char := '<' :: name ++ attrs.flatMap writeAttr ++ ['>']

def endTag (name : List Char) : List Char := '<' :: '/' :: name ++ ['>']

def serialize : Html → List Char
  | nil => []
  | char c next => escapeText c ++ next.serialize
  | element name attrs children next =>
    startTag name attrs ++ (if name ∈ voidNames then [] else children.serialize ++ endTag name) ++ next.serialize

inductive Token where
  | char (c : Char)
  | startTag (name : List Char) (attrs : Attrs)
  | endTag (name : List Char)

structure Tag where
  isEnd : Bool
  name : List Char
  attrs : Attrs

namespace Tag

def token (t : Tag) : Token := if t.isEnd then .endTag t.name else .startTag t.name t.attrs

/-- A second attribute of one name is dropped. -/
def add (t : Tag) (name value : List Char) : Tag :=
  if name ∈ t.attrs.map Prod.fst then t else { t with attrs := t.attrs ++ [(name, value)] }

end Tag

-- `ref` is a character reference that is being read
inductive State where
  | data (ref : Option (List Char))
  | tagOpen
  | endTagOpen
  | tagName (t : Tag)
  | beforeAttributeName (t : Tag)
  | attributeName (t : Tag) (name : List Char)
  | afterAttributeName (t : Tag) (name : List Char)
  | beforeAttributeValue (t : Tag) (name : List Char)
  | attributeValue (t : Tag) (name : List Char) (quote : Option Char) (value : List Char) (ref : Option (List Char))
  | afterAttributeValueQuoted (t : Tag)
  | selfClosingStartTag (t : Tag)
  | markupDeclarationOpen
  | markupDeclarationDash
  | comment (text : List Char)
  | bogusComment

def references : List (List Char × Char) :=
  [("amp".toList, '&'), ("lt".toList, '<'), ("gt".toList, '>'), ("quot".toList, '"'), ("nbsp".toList, '\u00A0')]

/-- The characters that are read, and the reference that is still open. -/
def refStep (ref : Option (List Char)) (c : Char) : List Char × Option (List Char) :=
  match ref with
  | none => if c = '&' then ([], some []) else ([c], none)
  | some name =>
    if c = ';' then
      match references.lookup name with
      | some r => ([r], none)
      | none => ('&' :: name ++ [';'], none)
    else if c.isAlphanum then ([], some (name ++ [c]))
    else if c = '&' then ('&' :: name, some [])
    else ('&' :: name ++ [c], none)

/-- What an open reference stands for when something else begins. -/
def refEnd (ref : Option (List Char)) : List Char := ref.elim [] fun name => '&' :: name

def isSpace (c : Char) : Bool := c = '\t' || c = '\n' || c = '\x0c' || c = ' '

def emit (t : Tag) : List Token × State := ([t.token], .data none)

def dataStep (ref : Option (List Char)) (c : Char) : List Token × State :=
  if c = '<' then ((refEnd ref).map .char, .tagOpen)
  else ((refStep ref c).1.map .char, .data (refStep ref c).2)

def tagNameStep (t : Tag) (c : Char) : List Token × State :=
  if isSpace c then ([], .beforeAttributeName t)
  else if c = '/' then ([], .selfClosingStartTag t)
  else if c = '>' then emit t
  else ([], .tagName { t with name := t.name ++ [c.toLower] })

def attributeNameStep (t : Tag) (name : List Char) (c : Char) : List Token × State :=
  if isSpace c then ([], .afterAttributeName t name)
  else if c = '/' then ([], .selfClosingStartTag (t.add name []))
  else if c = '>' then emit (t.add name [])
  else if c = '=' then ([], .beforeAttributeValue t name)
  else ([], .attributeName t (name ++ [c.toLower]))

def beforeAttributeNameStep (t : Tag) (c : Char) : List Token × State :=
  if isSpace c then ([], .beforeAttributeName t)
  else if c = '/' then ([], .selfClosingStartTag t)
  else if c = '>' then emit t
  else if c = '=' then ([], .attributeName t ['='])
  else attributeNameStep t [] c

def afterAttributeNameStep (t : Tag) (name : List Char) (c : Char) : List Token × State :=
  if isSpace c then ([], .afterAttributeName t name)
  else if c = '/' then ([], .selfClosingStartTag (t.add name []))
  else if c = '=' then ([], .beforeAttributeValue t name)
  else if c = '>' then emit (t.add name [])
  else attributeNameStep (t.add name []) [] c

def attributeValueStep (t : Tag) (name : List Char) (quote : Option Char) (value : List Char)
    (ref : Option (List Char)) (c : Char) : List Token × State :=
  if quote = some c then ([], .afterAttributeValueQuoted (t.add name (value ++ refEnd ref)))
  else if quote = none ∧ isSpace c = true then ([], .beforeAttributeName (t.add name (value ++ refEnd ref)))
  else if quote = none ∧ c = '>' then emit (t.add name (value ++ refEnd ref))
  else ([], .attributeValue t name quote (value ++ (refStep ref c).1) (refStep ref c).2)

def beforeAttributeValueStep (t : Tag) (name : List Char) (c : Char) : List Token × State :=
  if isSpace c then ([], .beforeAttributeValue t name)
  else if c = '"' ∨ c = '\'' then ([], .attributeValue t name (some c) [] none)
  else if c = '>' then emit (t.add name [])
  else attributeValueStep t name none [] none c

-- `-->` and `--!>` end a comment, and `>` or `->` right at its beginning
def endsComment (text : List Char) : Bool :=
  text = [] || text = ['-'] || ['-', '-'].isSuffixOf text || ['-', '-', '!'].isSuffixOf text

def step : State → Char → List Token × State
  | .data ref, c => dataStep ref c
  | .tagOpen, c =>
    if c = '!' then ([], .markupDeclarationOpen)
    else if c = '/' then ([], .endTagOpen)
    else if c.isAlpha then tagNameStep ⟨false, [], []⟩ c
    else if c = '?' then ([], .bogusComment)
    else (.char '<' :: (dataStep none c).1, (dataStep none c).2)
  | .endTagOpen, c =>
    if c.isAlpha then tagNameStep ⟨true, [], []⟩ c
    else if c = '>' then ([], .data none)
    else ([], .bogusComment)
  | .tagName t, c => tagNameStep t c
  -- a self-closing tag is read on like any other
  | .beforeAttributeName t, c | .afterAttributeValueQuoted t, c | .selfClosingStartTag t, c => beforeAttributeNameStep t c
  | .attributeName t name, c => attributeNameStep t name c
  | .afterAttributeName t name, c => afterAttributeNameStep t name c
  | .beforeAttributeValue t name, c => beforeAttributeValueStep t name c
  | .attributeValue t name quote value ref, c => attributeValueStep t name quote value ref c
  | .markupDeclarationOpen, c =>
    if c = '-' then ([], .markupDeclarationDash) else if c = '>' then ([], .data none) else ([], .bogusComment)
  | .markupDeclarationDash, c =>
    if c = '-' then ([], .comment []) else if c = '>' then ([], .data none) else ([], .bogusComment)
  | .comment text, c => if c = '>' ∧ endsComment text = true then ([], .data none) else ([], .comment (text ++ [c]))
  | .bogusComment, c => if c = '>' then ([], .data none) else ([], .bogusComment)

/-- A tag or a comment that the text breaks off is dropped. -/
def finish : State → List Token
  | .data ref => (refEnd ref).map .char
  | .tagOpen => [.char '<']
  | .endTagOpen => [.char '<', .char '/']
  | _ => []

def run : State → List Char → List Token
  | st, [] => finish st
  | st, c :: cs => (step st c).1 ++ run (step st c).2 cs

def tokenize (cs : List Char) : List Token := run (.data none) cs

/-- An open element, with the nodes before it. -/
structure Open where
  name : List Char
  attrs : Attrs
  before : Html

def close (children : Html) (o : Open) : Html := o.before.append (.element o.name o.attrs children .nil)

def closeTo (name : List Char) : List Open → Html → List Open × Html
  | [], current => ([], current)
  | o :: opens, current => if o.name = name then (opens, close current o) else closeTo name opens (close current o)

-- the innermost element comes first
def construct : List Open → Html → List Token → Html
  | opens, current, [] => opens.foldl close current
  | opens, current, .char c :: ts => construct opens (current.append (.char c .nil)) ts
  | opens, current, .startTag name attrs :: ts =>
    if name ∈ voidNames then construct opens (current.append (.element name attrs .nil .nil)) ts
    else construct (⟨name, attrs, current⟩ :: opens) .nil ts
  | opens, current, .endTag name :: ts =>
    if name ∈ opens.map Open.name then construct (closeTo name opens current).1 (closeTo name opens current).2 ts
    else construct opens current ts

def parse (cs : List Char) : Html := construct [] .nil (tokenize cs)

def isPlain (c : Char) : Bool := c.isLower || c.isDigit || c = '-'

/-- Plain names, attributes of different names, nothing in a void element. -/
def WellFormed : Html → Prop
  | nil => True
  | char _ next => next.WellFormed
  | element name attrs children next =>
    (∃ c cs, name = c :: cs ∧ c.isLower = true) ∧ (∀ c ∈ name, isPlain c = true) ∧
      (∀ a ∈ attrs, a.1 ≠ [] ∧ ∀ c ∈ a.1, isPlain c = true) ∧ (attrs.map Prod.fst).Nodup ∧
      (name ∈ voidNames → children = nil) ∧ children.WellFormed ∧ next.WellFormed

instance (name : List Char) : Decidable (∃ c cs, name = c :: cs ∧ c.isLower = true) :=
  match name with
  | [] => isFalse fun ⟨_, _, h, _⟩ => by cases h
  | c :: cs => decidable_of_iff (c.isLower = true) ⟨fun h => ⟨c, cs, rfl, h⟩, fun ⟨_, _, h, hl⟩ => by cases h; exact hl⟩

instance decidableWellFormed : (d : Html) → Decidable d.WellFormed
  | nil => isTrue trivial
  | char _ next => decidableWellFormed next
  | element name attrs children next =>
    have plain (s : List Char) : Decidable (∀ c ∈ s, isPlain c = true) := List.decidableBAll _ s
    have := plain name
    have : Decidable (∀ a ∈ attrs, a.1 ≠ [] ∧ ∀ c ∈ a.1, isPlain c = true) := List.decidableBAll _ attrs
    have := decidableWellFormed children
    have := decidableWellFormed next
    inferInstanceAs (Decidable (_ ∧ _ ∧ _ ∧ _ ∧ _ ∧ _ ∧ _))

def tokens : Html → List Token
  | nil => []
  | char c next => .char c :: next.tokens
  | element name attrs children next =>
    .startTag name attrs :: ((if name ∈ voidNames then [] else children.tokens ++ [.endTag name]) ++ next.tokens)

variable {t : Tag} {c : Char} {name value s : List Char} {attrs : Attrs}

theorem isPlain_lower (h : isPlain c = true) : c.toLower = c := by
  refine dif_neg ?_
  rintro ⟨hA, hZ⟩
  have hlower : c.isLower = (decide (c.val ≥ 'a'.val) && decide (c.val ≤ 'z'.val)) := rfl
  simp only [isPlain, hlower, Char.isDigit, Bool.or_eq_true, Bool.and_eq_true, decide_eq_true_eq, ge_iff_le,
    UInt32.le_iff_toNat_le] at h hA hZ
  have hvals : 'A'.val.toNat = 65 ∧ 'Z'.val.toNat = 90 ∧ 'a'.val.toNat = 97 ∧ '0'.val.toNat = 48 ∧ '9'.val.toNat = 57 :=
    ⟨rfl, rfl, rfl, rfl, rfl⟩
  rcases h with (h | h) | rfl
  · omega
  · omega
  · exact absurd hA (by decide)

theorem isPlain_ne (h : isPlain c = true) : ∀ d : Char, isPlain d = false → c ≠ d := by
  rintro d hd rfl
  rw [h] at hd
  cases hd

theorem isPlain_not_space (h : isPlain c = true) : isSpace c = false := by
  have hne := isPlain_ne h
  simp [isSpace, hne '\t' (by decide), hne '\n' (by decide), hne '\x0c' (by decide), hne ' ' (by decide)]

theorem run_escapeText (c : Char) (s : List Char) :
    run (.data none) (escapeText c ++ s) = .char c :: run (.data none) s := by
  unfold escapeText
  split
  · rfl
  · rfl
  · rfl
  · rfl
  · next h1 h2 h3 h4 =>
    show (dataStep none c).1 ++ run (dataStep none c).2 s = _
    rw [dataStep, if_neg (fun h => h2 h), refStep, if_neg (fun h => h1 h)]
    rfl

theorem run_tagName (hp : ∀ c ∈ name, isPlain c = true) (s : List Char) :
    run (.tagName t) (name ++ s) = run (.tagName { t with name := t.name ++ name }) s := by
  induction name generalizing t with
  | nil => simp
  | cons c name ih =>
    have hc := hp c List.mem_cons_self
    have hne := isPlain_ne hc
    have hstep : step (.tagName t) c = ([], .tagName { t with name := t.name ++ [c] }) := by
      show tagNameStep t c = _
      rw [tagNameStep, if_neg (by simp [isPlain_not_space hc]), if_neg (hne '/' (by decide)),
        if_neg (hne '>' (by decide)), isPlain_lower hc]
    rw [List.cons_append, run, hstep, List.nil_append, ih fun d hd => hp d (List.mem_cons_of_mem c hd)]
    simp

theorem run_attributeName {n : List Char} (hp : ∀ c ∈ name, isPlain c = true) (s : List Char) :
    run (.attributeName t n) (name ++ s) = run (.attributeName t (n ++ name)) s := by
  induction name generalizing n with
  | nil => simp
  | cons c name ih =>
    have hc := hp c List.mem_cons_self
    have hne := isPlain_ne hc
    have hstep : step (.attributeName t n) c = ([], .attributeName t (n ++ [c])) := by
      show attributeNameStep t n c = _
      rw [attributeNameStep, if_neg (by simp [isPlain_not_space hc]), if_neg (hne '/' (by decide)),
        if_neg (hne '>' (by decide)), if_neg (hne '=' (by decide)), isPlain_lower hc]
    rw [List.cons_append, run, hstep, List.nil_append, ih fun d hd => hp d (List.mem_cons_of_mem c hd)]
    simp

def Between (t : Tag) (st : State) : Prop := st = .tagName t ∨ st = .afterAttributeValueQuoted t

theorem run_attrOpen {st : State} (hst : Between t st) (hne : name ≠ []) (hp : ∀ c ∈ name, isPlain c = true)
    (s : List Char) : run st (attrOpen name ++ s) = run (.attributeValue t name (some '"') [] none) s := by
  have hspace : step st ' ' = ([], .beforeAttributeName t) := by
    rcases hst with rfl | rfl <;> rfl
  obtain ⟨c, cs, rfl⟩ := List.exists_cons_of_ne_nil hne
  have hc := hp c List.mem_cons_self
  have hstep : step (.beforeAttributeName t) c = ([], .attributeName t [c]) := by
    have hd := isPlain_ne hc
    show beforeAttributeNameStep t c = _
    rw [beforeAttributeNameStep, if_neg (by simp [isPlain_not_space hc]), if_neg (hd '/' (by decide)),
      if_neg (hd '>' (by decide)), if_neg (hd '=' (by decide)), attributeNameStep,
      if_neg (by simp [isPlain_not_space hc]), if_neg (hd '/' (by decide)), if_neg (hd '>' (by decide)),
      if_neg (hd '=' (by decide)), isPlain_lower hc]
    rfl
  have hopen : attrOpen (c :: cs) ++ s = ' ' :: c :: (cs ++ '=' :: '"' :: s) := by simp [attrOpen]
  rw [hopen, run, hspace, List.nil_append, run, hstep, List.nil_append,
    run_attributeName (fun d hd => hp d (List.mem_cons_of_mem c hd))]
  rfl

/-- The characters of a quoted value other than the quote and the ampersand stand for themselves. -/
theorem run_attributeValue {v : List Char} (h : ∀ c ∈ value, c ≠ '"' ∧ c ≠ '&') (s : List Char) :
    run (.attributeValue t name (some '"') v none) (value ++ s) =
      run (.attributeValue t name (some '"') (v ++ value) none) s := by
  induction value generalizing v with
  | nil => simp
  | cons c value ih =>
    obtain ⟨hquote, hamp⟩ := h c List.mem_cons_self
    have hstep : step (.attributeValue t name (some '"') v none) c =
        ([], .attributeValue t name (some '"') (v ++ [c]) none) := by
      show attributeValueStep t name (some '"') v none c = _
      rw [attributeValueStep, if_neg fun hq => hquote (Option.some.inj hq).symm, if_neg (fun hn => by cases hn.1),
        if_neg (fun hn => by cases hn.1), refStep, if_neg hamp]
    rw [List.cons_append, run, hstep, List.nil_append, ih fun d hd => h d (List.mem_cons_of_mem c hd)]
    simp

theorem run_escapeAttr {v : List Char} (c : Char) (s : List Char) :
    run (.attributeValue t name (some '"') v none) (escapeAttr c ++ s) =
      run (.attributeValue t name (some '"') (v ++ [c]) none) s := by
  unfold escapeAttr
  split
  · show run (.attributeValue t name (some '"') (v ++ [] ++ [] ++ [] ++ [] ++ ['&']) none) s = _
    simp
  · show run (.attributeValue t name (some '"') (v ++ [] ++ [] ++ [] ++ [] ++ [] ++ ['"']) none) s = _
    simp
  · show run (.attributeValue t name (some '"') (v ++ [] ++ [] ++ [] ++ [] ++ [] ++ ['\u00A0']) none) s = _
    simp
  · next h1 h2 h3 =>
    have hplain : ∀ d ∈ [c], d ≠ '"' ∧ d ≠ '&' := by
      intro d hd
      rw [List.mem_singleton.1 hd]
      exact ⟨fun h => h2 h, fun h => h1 h⟩
    exact run_attributeValue hplain s

theorem run_escapedValue {v : List Char} (value s : List Char) :
    run (.attributeValue t name (some '"') v none) (value.flatMap escapeAttr ++ s) =
      run (.attributeValue t name (some '"') (v ++ value) none) s := by
  induction value generalizing v with
  | nil => simp
  | cons c value ih =>
    rw [List.flatMap_cons, List.append_assoc, run_escapeAttr, ih]
    simp

theorem run_quote {v : List Char} (s : List Char) : run (.attributeValue t name (some '"') v none) ('"' :: s) =
    run (.afterAttributeValueQuoted (t.add name v)) s := by
  show run (.afterAttributeValueQuoted (t.add name (v ++ []))) s = _
  rw [List.append_nil]

theorem run_writeAttrs {st : State} (hst : Between t st)
    (hp : ∀ a ∈ attrs, a.1 ≠ [] ∧ ∀ c ∈ a.1, isPlain c = true) (hn : ((t.attrs ++ attrs).map Prod.fst).Nodup)
    (s : List Char) :
    ∃ st', Between { t with attrs := t.attrs ++ attrs } st' ∧ run st (attrs.flatMap writeAttr ++ s) = run st' s := by
  induction attrs generalizing t st with
  | nil => exact ⟨st, by simpa using hst, rfl⟩
  | cons a attrs ih =>
    obtain ⟨hne, hplain⟩ := hp a List.mem_cons_self
    have hadd : t.add a.1 a.2 = { t with attrs := t.attrs ++ [a] } := by
      rw [List.map_append, List.map_cons] at hn
      exact if_neg fun hm => (List.nodup_append.1 hn).2.2 _ hm _ List.mem_cons_self rfl
    have hread : run st (writeAttr a ++ (attrs.flatMap writeAttr ++ s)) =
        run (.afterAttributeValueQuoted { t with attrs := t.attrs ++ [a] }) (attrs.flatMap writeAttr ++ s) := by
      rw [writeAttr, List.append_assoc, List.append_assoc, run_attrOpen hst hne hplain, run_escapedValue,
        List.nil_append, List.singleton_append, run_quote, hadd]
    obtain ⟨st', hst', hrun⟩ := ih (t := { t with attrs := t.attrs ++ [a] }) (.inr rfl)
      (fun b hb => hp b (List.mem_cons_of_mem a hb)) (by simpa using hn)
    refine ⟨st', by simpa using hst', ?_⟩
    rw [List.flatMap_cons, List.append_assoc, hread, hrun]

theorem run_tagOpen {b : Bool} {c : Char} {cs : List Char} (hl : c.isLower = true)
    (hp : ∀ d ∈ c :: cs, isPlain d = true) (s : List Char) :
    run (if b then .endTagOpen else .tagOpen) (c :: cs ++ s) = run (.tagName ⟨b, c :: cs, []⟩) s := by
  have hc := hp c List.mem_cons_self
  have hd := isPlain_ne hc
  have halpha : c.isAlpha = true := by
    show (c.isUpper || c.isLower) = true
    rw [hl, Bool.or_true]
  have hname : tagNameStep ⟨b, [], []⟩ c = ([], .tagName ⟨b, [c], []⟩) := by
    rw [tagNameStep, if_neg (by simp [isPlain_not_space hc]), if_neg (hd '/' (by decide)),
      if_neg (hd '>' (by decide)), isPlain_lower hc]
    rfl
  have hstep : step (if b then .endTagOpen else .tagOpen) c = ([], .tagName ⟨b, [c], []⟩) := by
    cases b with
    | true => exact (if_pos halpha).trans hname
    | false =>
      show (if _ then _ else _) = _
      rw [if_neg (hd '!' (by decide)), if_neg (hd '/' (by decide)), if_pos halpha, hname]
  rw [List.cons_append, run, hstep, List.nil_append, run_tagName fun d hd' => hp d (List.mem_cons_of_mem c hd')]
  rfl

theorem run_startTag {c : Char} {cs : List Char} (hl : c.isLower = true) (hp : ∀ d ∈ c :: cs, isPlain d = true)
    (ha : ∀ a ∈ attrs, a.1 ≠ [] ∧ ∀ d ∈ a.1, isPlain d = true) (hn : (attrs.map Prod.fst).Nodup) (s : List Char) :
    run (.data none) (startTag (c :: cs) attrs ++ s) = .startTag (c :: cs) attrs :: run (.data none) s := by
  obtain ⟨st, hst, hrun⟩ := run_writeAttrs (t := ⟨false, c :: cs, []⟩) (.inl rfl) ha hn ('>' :: s)
  have hopen : startTag (c :: cs) attrs ++ s = '<' :: (c :: cs ++ (attrs.flatMap writeAttr ++ '>' :: s)) := by
    simp [startTag]
  rw [hopen]
  show run (if false then .endTagOpen else .tagOpen) _ = _
  rw [run_tagOpen hl hp, hrun]
  rcases hst with rfl | rfl <;> rfl

theorem run_endTag {c : Char} {cs : List Char} (hl : c.isLower = true) (hp : ∀ d ∈ c :: cs, isPlain d = true)
    (s : List Char) : run (.data none) (endTag (c :: cs) ++ s) = .endTag (c :: cs) :: run (.data none) s := by
  have hopen : endTag (c :: cs) ++ s = '<' :: '/' :: (c :: cs ++ '>' :: s) := by simp [endTag]
  rw [hopen]
  show run (if true then .endTagOpen else .tagOpen) _ = _
  rw [run_tagOpen hl hp]
  rfl

theorem run_serialize {d : Html} (h : d.WellFormed) (s : List Char) :
    run (.data none) (d.serialize ++ s) = d.tokens ++ run (.data none) s := by
  induction d generalizing s with
  | nil => rfl
  | char c next ih => rw [serialize, List.append_assoc, run_escapeText, ih h, tokens, List.cons_append]
  | element name attrs children next ihc ihn =>
    obtain ⟨⟨c, cs, rfl, hl⟩, hp, ha, hn, hvoid, hc, hnext⟩ := h
    rw [serialize, tokens, List.append_assoc, List.append_assoc, run_startTag hl hp ha hn]
    split
    · rw [List.nil_append, List.nil_append, ihn hnext, List.cons_append]
    · rw [List.append_assoc, ihc hc, run_endTag hl hp, ihn hnext]
      simp

theorem construct_tokens {d : Html} (h : d.WellFormed) (opens : List Open) (current : Html) (ts : List Token) :
    construct opens current (d.tokens ++ ts) = construct opens (current.append d) ts := by
  induction d generalizing opens current ts with
  | nil => rw [append_nil]; rfl
  | char c next ih =>
    rw [tokens, List.cons_append, construct, ih h, append_assoc]
    rfl
  | element name attrs children next ihc ihn =>
    obtain ⟨-, -, -, -, hvoid, hc, hnext⟩ := h
    rw [tokens, List.cons_append, construct]
    by_cases hv : name ∈ voidNames
    · rw [if_pos hv, if_pos hv, List.nil_append, ihn hnext, hvoid hv, append_assoc]
      rfl
    · have hmem : name ∈ (⟨name, attrs, current⟩ :: opens : List Open).map Open.name := List.mem_cons_self
      have hclose : closeTo name (⟨name, attrs, current⟩ :: opens) children =
          (opens, current.append (.element name attrs children .nil)) := if_pos rfl
      rw [if_neg hv, if_neg hv, List.append_assoc, List.append_assoc, ihc hc]
      show construct _ children (.endTag name :: (next.tokens ++ ts)) = _
      rw [construct, if_pos hmem, hclose, ihn hnext, append_assoc]
      rfl

theorem parse_serialize {d : Html} (h : d.WellFormed) : parse d.serialize = d := by
  have hrun := run_serialize h []
  have hbuild := construct_tokens h [] nil []
  rw [List.append_nil] at hrun hbuild
  rw [parse, tokenize, hrun]
  show construct [] nil (d.tokens ++ []) = d
  rw [List.append_nil, hbuild]
  rfl

/-! ### Start tags of any text -/

def Token.startTag? : Token → Option (List Char × Attrs)
  | .startTag name attrs => some (name, attrs)
  | _ => none

def tagsFrom (st : State) (s : List Char) : List (List Char × Attrs) := (run st s).filterMap Token.startTag?

theorem startTags_tokens (d : Html) (h : d.WellFormed) : d.tokens.filterMap Token.startTag? = d.startTags := by
  induction d with
  | nil => rfl
  | char c next ih => exact ih h
  | element name attrs children next ihc ihn =>
    obtain ⟨-, -, -, -, hvoid, hc, hnext⟩ := h
    rw [tokens, startTags, ← ihn hnext]
    split
    · next hv => rw [hvoid hv]; rfl
    · rw [← ihc hc]
      simp [Token.startTag?, List.filterMap_cons]

/-- The start tags of the nodes before the place where the construction is. -/
def openTags : List Open → List (List Char × Attrs)
  | [] => []
  | o :: opens => openTags opens ++ o.before.startTags ++ [(o.name, o.attrs)]

theorem startTags_close (o : Open) (opens : List Open) (current : Html) :
    openTags opens ++ (close current o).startTags = openTags (o :: opens) ++ current.startTags := by
  rw [close, startTags_append, openTags, startTags, startTags]
  simp

theorem startTags_closeTo (name : List Char) (opens : List Open) (current : Html) :
    openTags (closeTo name opens current).1 ++ (closeTo name opens current).2.startTags =
      openTags opens ++ current.startTags := by
  induction opens generalizing current with
  | nil => rfl
  | cons o opens ih =>
    rw [closeTo]
    split
    · exact startTags_close o opens current
    · rw [ih, startTags_close]

theorem startTags_construct (opens : List Open) (current : Html) (ts : List Token) :
    (construct opens current ts).startTags = openTags opens ++ current.startTags ++ ts.filterMap Token.startTag? := by
  induction ts generalizing opens current with
  | nil =>
    rw [construct, List.filterMap_nil, List.append_nil]
    induction opens generalizing current with
    | nil => rfl
    | cons o opens ih => rw [List.foldl_cons, ih, startTags_close]
  | cons t ts ih =>
    cases t with
    | char c =>
      rw [construct, ih, startTags_append]
      simp [startTags, Token.startTag?, List.filterMap_cons]
    | startTag name attrs =>
      rw [construct]
      split
      · rw [ih, startTags_append]
        simp [startTags, Token.startTag?]
      · rw [ih]
        simp [openTags, startTags, Token.startTag?]
    | endTag name =>
      rw [construct]
      split
      · rw [ih, startTags_closeTo]
        rfl
      · rw [ih]
        rfl

theorem startTags_parse (s : List Char) : (parse s).startTags = tagsFrom (.data none) s :=
  startTags_construct [] nil (tokenize s)

/-- The start tag `name` that has at least the attributes `attrs`. -/
def Tag.Extends (name : List Char) (attrs : Attrs) (t : Tag) : Prop :=
  t.isEnd = false ∧ t.name = name ∧ attrs <+: t.attrs

theorem Tag.Extends.add (h : t.Extends name attrs) (n v : List Char) : (t.add n v).Extends name attrs := by
  obtain ⟨hend, hname, hattrs⟩ := h
  unfold Tag.add
  split
  · exact ⟨hend, hname, hattrs⟩
  · exact ⟨hend, hname, hattrs.trans (List.prefix_append _ _)⟩

/-- The tag is being read, behind its name. -/
def State.InTag (name : List Char) (attrs : Attrs) : State → Prop
  | .beforeAttributeName t | .attributeName t _ | .afterAttributeName t _ | .beforeAttributeValue t _
  | .attributeValue t _ _ _ _ | .afterAttributeValueQuoted t | .selfClosingStartTag t => t.Extends name attrs
  | _ => False

def Continues (name : List Char) (attrs : Attrs) (r : List Token × State) : Prop :=
  (r.1 = [] ∧ r.2.InTag name attrs) ∨ ∃ attrs', r = ([.startTag name attrs'], .data none) ∧ attrs <+: attrs'

theorem continues_emit (h : t.Extends name attrs) : Continues name attrs (emit t) := by
  obtain ⟨hend, hname, hattrs⟩ := h
  exact .inr ⟨t.attrs, by rw [emit, Tag.token, hend, hname]; rfl, hattrs⟩

theorem attributeNameStep_continues (h : t.Extends name attrs) (n : List Char) (c : Char) :
    Continues name attrs (attributeNameStep t n c) := by
  unfold attributeNameStep
  split_ifs
  · exact .inl ⟨rfl, h⟩
  · exact .inl ⟨rfl, h.add n []⟩
  · exact continues_emit (h.add n [])
  · exact .inl ⟨rfl, h⟩
  · exact .inl ⟨rfl, h⟩

theorem beforeAttributeNameStep_continues (h : t.Extends name attrs) (c : Char) :
    Continues name attrs (beforeAttributeNameStep t c) := by
  unfold beforeAttributeNameStep
  split_ifs
  · exact .inl ⟨rfl, h⟩
  · exact .inl ⟨rfl, h⟩
  · exact continues_emit h
  · exact .inl ⟨rfl, h⟩
  · exact attributeNameStep_continues h [] c

theorem attributeValueStep_continues (h : t.Extends name attrs) (n : List Char) (quote : Option Char) (v : List Char)
    (ref : Option (List Char)) (c : Char) : Continues name attrs (attributeValueStep t n quote v ref c) := by
  unfold attributeValueStep
  split_ifs
  · exact .inl ⟨rfl, h.add n _⟩
  · exact .inl ⟨rfl, h.add n _⟩
  · exact continues_emit (h.add n _)
  · exact .inl ⟨rfl, h⟩

theorem step_continues {st : State} (h : st.InTag name attrs) (c : Char) : Continues name attrs (step st c) := by
  cases st with
  | beforeAttributeName t | afterAttributeValueQuoted t | selfClosingStartTag t =>
    exact beforeAttributeNameStep_continues h c
  | attributeName t n => exact attributeNameStep_continues h n c
  | afterAttributeName t n =>
    show Continues name attrs (afterAttributeNameStep t n c)
    unfold afterAttributeNameStep
    split_ifs
    · exact .inl ⟨rfl, h⟩
    · exact .inl ⟨rfl, Tag.Extends.add h n []⟩
    · exact .inl ⟨rfl, h⟩
    · exact continues_emit (Tag.Extends.add h n [])
    · exact attributeNameStep_continues (Tag.Extends.add h n []) [] c
  | beforeAttributeValue t n =>
    show Continues name attrs (beforeAttributeValueStep t n c)
    unfold beforeAttributeValueStep
    split_ifs
    · exact .inl ⟨rfl, h⟩
    · exact .inl ⟨rfl, h⟩
    · exact continues_emit (Tag.Extends.add h n [])
    · exact attributeValueStep_continues h n none [] none c
  | attributeValue t n quote v ref => exact attributeValueStep_continues h n quote v ref c
  | _ => cases h

/-- From within a tag the next start tag, if there is one, is that tag, with the attributes it has. -/
theorem tagsFrom_inTag {st : State} (h : st.InTag name attrs) (s : List Char) :
    ∀ tag ∈ (tagsFrom st s).head?, tag.1 = name ∧ attrs <+: tag.2 := by
  induction s generalizing st with
  | nil =>
    have hfinish : finish st = [] := by
      cases st with
      | data _ | tagOpen | endTagOpen => cases h
      | _ => rfl
    rw [tagsFrom, run, hfinish]
    rintro tag ⟨⟩
  | cons c s ih =>
    rw [tagsFrom, run]
    rcases step_continues h c with ⟨hnone, hin⟩ | ⟨attrs', hstep, hattrs⟩
    · rw [hnone, List.nil_append]
      exact ih hin
    · rw [hstep]
      rintro tag ⟨⟩
      exact ⟨rfl, hattrs⟩

/-! ### Tags of a text in parts -/

def Token.isTag : Token → Bool
  | .char _ => false
  | .startTag _ _ | .endTag _ => true

def tags (st : State) (s : List Char) : List Token := (run st s).filter Token.isTag

def after (st : State) (s : List Char) : State := s.foldl (fun st c => (step st c).2) st

def tagsBefore (st : State) : List Char → List Token
  | [] => []
  | c :: s => (step st c).1.filter Token.isTag ++ tagsBefore (step st c).2 s

theorem tags_append (st : State) (s s' : List Char) : tags st (s ++ s') = tagsBefore st s ++ tags (after st s) s' := by
  induction s generalizing st with
  | nil => rfl
  | cons c s ih =>
    show ((step st c).1 ++ run (step st c).2 (s ++ s')).filter Token.isTag = _
    rw [List.filter_append]
    show _ ++ tags (step st c).2 (s ++ s') = _
    rw [ih, tagsBefore, List.append_assoc]
    rfl

theorem filter_map_char (s : List Char) : (s.map Token.char).filter Token.isTag = [] := by
  simp [List.filter_eq_nil_iff, Token.isTag]

theorem tags_nil (st : State) : tags st [] = [] := by
  cases st with
  | data ref => exact filter_map_char _
  | _ => rfl

/-- Two states that differ at most in a character reference between tags. -/
def State.Alike (st st' : State) : Prop := st = st' ∨ ∃ ref ref', st = .data ref ∧ st' = .data ref'

theorem State.Alike.data {ref : Option (List Char)} {st : State} (h : (State.data ref).Alike st) : ∃ ref', st = .data ref' := by
  rcases h with rfl | ⟨-, ref', -, rfl⟩
  · exact ⟨ref, rfl⟩
  · exact ⟨ref', rfl⟩

theorem State.Alike.step {st st' : State} (h : st.Alike st') (c : Char) :
    (Html.step st c).1.filter Token.isTag = (Html.step st' c).1.filter Token.isTag ∧
      (Html.step st c).2.Alike (Html.step st' c).2 := by
  rcases h with rfl | ⟨ref, ref', rfl, rfl⟩
  · exact ⟨rfl, .inl rfl⟩
  · simp only [Html.step, dataStep]
    split
    · exact ⟨by rw [filter_map_char, filter_map_char], .inl rfl⟩
    · exact ⟨by rw [filter_map_char, filter_map_char], .inr ⟨_, _, rfl, rfl⟩⟩

theorem State.Alike.tagsBefore {st st' : State} (h : st.Alike st') (s : List Char) :
    Html.tagsBefore st s = Html.tagsBefore st' s ∧ (after st s).Alike (after st' s) := by
  induction s generalizing st st' with
  | nil => exact ⟨rfl, h⟩
  | cons c s ih =>
    obtain ⟨hfilter, hnext⟩ := h.step c
    obtain ⟨htags, hafter⟩ := ih hnext
    exact ⟨by rw [Html.tagsBefore, Html.tagsBefore, hfilter, htags], hafter⟩

theorem tagsBefore_plain (ref : Option (List Char)) {s : List Char} (h : '<' ∉ s) :
    tagsBefore (.data ref) s = [] ∧ ∃ ref', after (.data ref) s = .data ref' := by
  induction s generalizing ref with
  | nil => exact ⟨rfl, ref, rfl⟩
  | cons c s ih =>
    rw [List.mem_cons, not_or] at h
    have hstep : step (.data ref) c = ((refStep ref c).1.map .char, .data (refStep ref c).2) := if_neg (Ne.symm h.1)
    obtain ⟨htags, ref', hafter⟩ := ih (refStep ref c).2 h.2
    refine ⟨?_, ref', ?_⟩
    · rw [tagsBefore, hstep, filter_map_char, htags]
      rfl
    · show after (step (.data ref) c).2 s = _
      rw [hstep]
      exact hafter

end Html
