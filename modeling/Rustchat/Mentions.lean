import Rustchat.Lib.Html

/-!
# Mentions in rendered messages (`composables/useMarkdownRenderer.ts`)

`renderMarkdownSync` sanitizes the HTML of a message and then puts a span around every `@name` of the text
of the result. The replacement does not see tags. Where no attribute value holds a mention it changes text
only, and the result reads as the sanitized tree with its mentions (`replaceMentions_serialize`). A mention
in an attribute value closes the quote, and the start tag is read with another value and further attributes
(`startTag_broken`). So the condition of `renderMarkdownSync_safe_iff` is exact.
-/

namespace Rustchat

open Html (Attrs)

def allowedTags : List String :=
  ["p", "br", "strong", "em", "code", "pre", "span", "ul", "ol", "li", "blockquote", "a", "h1", "h2", "h3", "h4", "h5",
    "h6", "table", "thead", "tbody", "tr", "th", "td"]

def allowedAttr : List String := ["href", "target", "class", "style", "rel"]

/-- The libraries behind the renderer, and the table of `utils/emoji.ts`. -/
structure MarkdownLibs where
  emojiMap : String → Option String
  -- `marked`, once it is loaded
  marked : Option (String → String)
  -- `DOMPurify.sanitize`, with the allowed elements and attributes
  sanitize : List String → List String → String → String

-- `\w`
def isWord (c : Char) : Bool := c.isAlphanum || c = '_'

-- `[a-z0-9_+-]`
def isEmojiNameChar (c : Char) : Bool := c.isLower || c.isDigit || c = '_' || c = '+' || c = '-'

-- `skip` counts the characters of the last match that are still to pass
def replaceEmojiNames (emojiMap : String → Option String) : Nat → List Char → List Char
  | _, [] => []
  | skip + 1, _ :: cs => replaceEmojiNames emojiMap skip cs
  | 0, c :: cs =>
    let name := cs.takeWhile isEmojiNameChar
    if c = ':' ∧ name ≠ [] ∧ (cs.drop name.length).head? = some ':' then
      let found := (emojiMap (String.ofList name)).filter (· ≠ "")
      ((found.map String.toList).getD (':' :: name ++ [':'])) ++ replaceEmojiNames emojiMap (name.length + 1) cs
    else c :: replaceEmojiNames emojiMap 0 cs

def replaceAll (c : Char) (text : String) (cs : List Char) : List Char :=
  cs.flatMap fun d => if d = c then text.toList else [d]

namespace MarkdownLibs

/-- The HTML that is sanitized. -/
def toHtml (libs : MarkdownLibs) (markdown : String) : String :=
  let emojified := replaceEmojiNames libs.emojiMap 0 markdown.toList
  match libs.marked with
  | some parse => parse (String.ofList emojified)
  | none => String.ofList (replaceAll '\n' "<br>" (replaceAll '>' "&gt;" (replaceAll '<' "&lt;"
      (replaceAll '&' "&amp;" emojified))))

def sanitizedHtml (libs : MarkdownLibs) (markdown : String) : String :=
  libs.sanitize allowedTags allowedAttr (libs.toHtml markdown)

end MarkdownLibs

variable (highlightMentions : Option String)

def mentionClass (username : List Char) : List Char :=
  let isMe := highlightMentions.any fun h => h ≠ "" ∧ username = h.toList
  "mention ".toList ++
    if isMe then "bg-warning/20 text-warning font-bold px-0.5 rounded border border-warning/30".toList
    else "text-brand font-semibold hover:underline cursor-pointer".toList

/-- The text that replaces `@username`. -/
def mentionText (username : List Char) : List Char :=
  "<span class=\"".toList ++ mentionClass highlightMentions username ++ "\" data-username=\"".toList ++ username ++
    "\">@".toList ++ username ++ "</span>".toList

-- `/@(\w+)/g`; `skip` counts the characters of the last match that are still to pass
def replaceMentions : Nat → List Char → List Char
  | _, [] => []
  | skip + 1, _ :: cs => replaceMentions skip cs
  | 0, c :: cs =>
    let username := cs.takeWhile isWord
    if c = '@' ∧ username ≠ [] then mentionText highlightMentions username ++ replaceMentions username.length cs
    else c :: replaceMentions 0 cs

def renderMarkdownSync (libs : MarkdownLibs) (markdown : String) : String :=
  if markdown = "" then ""
  else String.ofList (replaceMentions highlightMentions 0 (libs.sanitizedHtml markdown).toList)

def mentionAttrs (username : List Char) : Attrs :=
  [("class".toList, mentionClass highlightMentions username), ("data-username".toList, username)]

def chars : List Char → Html
  | [] => .nil
  | c :: cs => .char c (chars cs)

def mentionSpan (username : List Char) (next : Html) : Html :=
  .element "span".toList (mentionAttrs highlightMentions username) (chars ('@' :: username)) next

def wordPrefix : Html → List Char
  | .char c next => if isWord c then c :: wordPrefix next else []
  | _ => []

-- `skip` counts the characters of the last mention that are still to pass
def mentions : Nat → Html → Html
  | _, .nil => .nil
  | skip + 1, .char _ next => mentions skip next
  | 0, .char c next =>
    let username := wordPrefix next
    if c = '@' ∧ username ≠ [] then mentionSpan highlightMentions username (mentions username.length next)
    else .char c (mentions 0 next)
  | _, .element name attrs children next => .element name attrs (mentions 0 children) (mentions 0 next)

/-- The elements and attributes that the sanitizer lets through. -/
def Allowed (tag : List Char × Attrs) : Prop :=
  tag.1 ∈ allowedTags.map String.toList ∧ ∀ a ∈ tag.2, a.1 ∈ allowedAttr.map String.toList

/-- A letter, a digit or an underscore right behind an `@`. -/
def HasMention (cs : List Char) : Prop := ∃ u c v, cs = u ++ '@' :: c :: v ∧ isWord c = true

def Quiet (attrs : Attrs) : Prop := ∀ a ∈ attrs, ¬ HasMention a.2

instance (tag : List Char × Attrs) : Decidable (Allowed tag) := inferInstanceAs (Decidable (_ ∧ _))

variable {highlightMentions} {c : Char} {cs name : List Char} {attrs : Attrs}

theorem replaceMentions_cons (h : c ≠ '@') (cs : List Char) :
    replaceMentions highlightMentions 0 (c :: cs) = c :: replaceMentions highlightMentions 0 cs := by
  rw [replaceMentions]
  exact if_neg fun hc => h hc.1

theorem replaceMentions_append (h : '@' ∉ cs) (s : List Char) :
    replaceMentions highlightMentions 0 (cs ++ s) = cs ++ replaceMentions highlightMentions 0 s := by
  induction cs with
  | nil => rfl
  | cons c cs ih =>
    obtain ⟨hc, hcs⟩ := not_or.1 (List.mem_cons.not.1 h)
    rw [List.cons_append, replaceMentions_cons (Ne.symm hc), ih hcs, List.cons_append]

theorem takeWhile_eq_nil_iff : cs.takeWhile isWord = [] ↔ ∀ c ∈ cs.head?, isWord c = false := by
  cases cs with
  | nil => simp
  | cons c cs => simp [List.takeWhile_cons]

theorem hasMention_cons_iff :
    HasMention (c :: cs) ↔ (c = '@' ∧ ∃ d ∈ cs.head?, isWord d = true) ∨ HasMention cs := by
  constructor
  · rintro ⟨u, d, v, h, hd⟩
    cases u with
    | nil =>
      obtain ⟨rfl, rfl⟩ := List.cons.inj h
      exact .inl ⟨rfl, d, rfl, hd⟩
    | cons x u =>
      obtain ⟨rfl, rfl⟩ := List.cons.inj h
      exact .inr ⟨u, d, v, rfl, hd⟩
  · rintro (⟨rfl, d, hd, hword⟩ | ⟨u, d, v, rfl, hd⟩)
    · obtain ⟨v, rfl⟩ := List.head?_eq_some_iff.1 hd
      exact ⟨[], d, v, rfl, hword⟩
    · exact ⟨c :: u, d, v, rfl, hd⟩

instance : DecidablePred HasMention
  | [] => isFalse fun ⟨_, _, _, h, _⟩ => by simp at h
  | c :: cs =>
    have := instDecidablePredListCharHasMention cs
    decidable_of_iff ((c = '@' ∧ cs.head?.any isWord = true) ∨ HasMention cs)
      (by rw [hasMention_cons_iff, Option.any_eq_true]; exact Iff.rfl)

instance (attrs : Attrs) : Decidable (Quiet attrs) :=
  inferInstanceAs (Decidable (∀ a ∈ attrs, ¬ HasMention a.2))

theorem replaceMentions_at (h : ∀ d ∈ cs.head?, isWord d = false) :
    replaceMentions highlightMentions 0 ('@' :: cs) = '@' :: replaceMentions highlightMentions 0 cs := by
  rw [replaceMentions]
  exact if_neg fun hc => hc.2 (takeWhile_eq_nil_iff.2 h)

theorem replaceMentions_name {username : List Char} (h : cs.takeWhile isWord = username) (hne : username ≠ []) :
    replaceMentions highlightMentions 0 ('@' :: cs) =
      mentionText highlightMentions username ++ replaceMentions highlightMentions username.length cs := by
  rw [replaceMentions, h]
  exact if_pos ⟨rfl, hne⟩

theorem not_mem_escapeAttr (h : c ≠ '@') : '@' ∉ Html.escapeAttr c := by
  unfold Html.escapeAttr
  split
  · decide
  · decide
  · decide
  · exact fun hm => h (List.mem_singleton.1 hm).symm

theorem not_mem_escapeText (h : c ≠ '@') : '@' ∉ Html.escapeText c := by
  unfold Html.escapeText
  split
  · decide
  · decide
  · decide
  · decide
  · exact fun hm => h (List.mem_singleton.1 hm).symm

theorem isWord_ne (h : isWord c = true) (d : Char) (hd : isWord d = false) : c ≠ d := by
  rintro rfl
  rw [h] at hd
  cases hd

theorem escapeAttr_of_isWord (h : isWord c = true) : Html.escapeAttr c = [c] := by
  have hne := isWord_ne h
  unfold Html.escapeAttr
  split
  · exact absurd rfl (hne '&' (by decide))
  · exact absurd rfl (hne '"' (by decide))
  · exact absurd rfl (hne '\u00A0' (by decide))
  · rfl

theorem escapeText_of_isWord (h : isWord c = true) : Html.escapeText c = [c] := by
  have hne := isWord_ne h
  unfold Html.escapeText
  split
  · exact absurd rfl (hne '&' (by decide))
  · exact absurd rfl (hne '<' (by decide))
  · exact absurd rfl (hne '>' (by decide))
  · exact absurd rfl (hne '\u00A0' (by decide))
  · rfl

theorem head_escapeAttr (c : Char) (s : List Char) :
    (Html.escapeAttr c ++ s).head? = some '&' ∨ (Html.escapeAttr c ++ s).head? = some c := by
  unfold Html.escapeAttr
  split
  · exact .inl rfl
  · exact .inl rfl
  · exact .inl rfl
  · exact .inr rfl

theorem head_escapedValue {s : List Char} (h : ∀ d ∈ cs.head?, isWord d = false) (hs : ∀ d ∈ s.head?, isWord d = false) :
    ∀ d ∈ (cs.flatMap Html.escapeAttr ++ s).head?, isWord d = false := by
  cases cs with
  | nil => exact hs
  | cons c cs =>
    intro d hd
    rw [List.flatMap_cons, List.append_assoc] at hd
    rcases head_escapeAttr c (cs.flatMap Html.escapeAttr ++ s) with he | he
    · rw [he] at hd
      obtain rfl := Option.some.inj hd
      decide
    · rw [he] at hd
      exact h d hd

theorem replaceMentions_value {value : List Char} (h : ¬ HasMention value) {s : List Char}
    (hs : ∀ d ∈ s.head?, isWord d = false) :
    replaceMentions highlightMentions 0 (value.flatMap Html.escapeAttr ++ s) =
      value.flatMap Html.escapeAttr ++ replaceMentions highlightMentions 0 s := by
  induction value with
  | nil => rfl
  | cons c value ih =>
    rw [hasMention_cons_iff, not_or] at h
    obtain ⟨hat, htail⟩ := h
    rw [List.flatMap_cons, List.append_assoc, List.append_assoc]
    by_cases hc : c = '@'
    · have hnext : ∀ d ∈ value.head?, isWord d = false := fun d hd =>
        Bool.eq_false_iff.2 fun hw => hat ⟨hc, d, hd, hw⟩
      subst c
      show replaceMentions highlightMentions 0 ('@' :: (value.flatMap Html.escapeAttr ++ s)) = '@' :: _
      rw [replaceMentions_at (head_escapedValue hnext hs), ih htail]
      rfl
    · rw [replaceMentions_append (not_mem_escapeAttr hc), ih htail]

variable (highlightMentions) in
theorem replaceMentions_mention {value : List Char} (h : HasMention value) {s : List Char}
    (hs : ∀ d ∈ s.head?, isWord d = false) :
    ∃ u v r, value = u ++ '@' :: v ∧
      replaceMentions highlightMentions 0 (value.flatMap Html.escapeAttr ++ s) =
        u.flatMap Html.escapeAttr ++ ("<span class=".toList ++ '"' :: r) := by
  induction value with
  | nil =>
    obtain ⟨u, d, v, h, -⟩ := h
    simp at h
  | cons c value ih =>
    rw [hasMention_cons_iff] at h
    by_cases hat : c = '@'
    · subst c
      show ∃ u v r, _ ∧ replaceMentions highlightMentions 0 ('@' :: (value.flatMap Html.escapeAttr ++ s)) = _
      by_cases hnext : ∃ d ∈ value.head?, isWord d = true
      · obtain ⟨d, hd, hword⟩ := hnext
        have hname : (value.flatMap Html.escapeAttr ++ s).takeWhile isWord ≠ [] := by
          obtain ⟨value, rfl⟩ := List.head?_eq_some_iff.1 hd
          rw [List.flatMap_cons, escapeAttr_of_isWord hword]
          simp [hword]
        rw [replaceMentions_name rfl hname]
        exact ⟨[], value, _, rfl, rfl⟩
      · obtain ⟨u, v, r, hv, hr⟩ := ih (h.resolve_left fun hn => hnext hn.2)
        have hquiet : ∀ d ∈ value.head?, isWord d = false := fun d hd =>
          Bool.eq_false_iff.2 fun hw => hnext ⟨d, hd, hw⟩
        rw [replaceMentions_at (head_escapedValue hquiet hs), hr]
        exact ⟨'@' :: u, v, r, by rw [hv]; rfl, rfl⟩
    · obtain ⟨u, v, r, hv, hr⟩ := ih (h.resolve_left fun hn => hat hn.1)
      rw [List.flatMap_cons, List.append_assoc, replaceMentions_append (not_mem_escapeAttr hat), hr]
      exact ⟨c :: u, v, r, by rw [hv]; rfl, by rw [List.flatMap_cons, List.append_assoc]⟩

theorem not_mem_of_plain (h : ∀ c ∈ name, Html.isPlain c = true) : '@' ∉ name := fun hm => by
  have hat := h '@' hm
  revert hat
  decide

theorem not_mem_attrOpen (h : ∀ c ∈ name, Html.isPlain c = true) : '@' ∉ Html.attrOpen name := by
  have hname := not_mem_of_plain h
  simp [Html.attrOpen, hname]

theorem replaceMentions_attrs (hp : ∀ a ∈ attrs, a.1 ≠ [] ∧ ∀ c ∈ a.1, Html.isPlain c = true) (hq : Quiet attrs)
    (s : List Char) :
    replaceMentions highlightMentions 0 (attrs.flatMap Html.writeAttr ++ s) =
      attrs.flatMap Html.writeAttr ++ replaceMentions highlightMentions 0 s := by
  induction attrs with
  | nil => rfl
  | cons a attrs ih =>
    have htail := ih (fun b hb => hp b (List.mem_cons_of_mem a hb)) fun b hb => hq b (List.mem_cons_of_mem a hb)
    have hquote : ∀ d ∈ ('"' :: (attrs.flatMap Html.writeAttr ++ s)).head?, isWord d = false := by
      rintro d ⟨⟩
      decide
    have hsplit : (a :: attrs).flatMap Html.writeAttr ++ s = Html.attrOpen a.1 ++ (a.2.flatMap Html.escapeAttr ++
        '"' :: (attrs.flatMap Html.writeAttr ++ s)) := by
      simp [Html.writeAttr]
    rw [hsplit, replaceMentions_append (not_mem_attrOpen (hp a List.mem_cons_self).2),
      replaceMentions_value (hq a List.mem_cons_self) hquote, replaceMentions_cons (by decide), htail]
    simp [Html.writeAttr]

theorem replaceMentions_startTag (hn : ∀ c ∈ name, Html.isPlain c = true)
    (hp : ∀ a ∈ attrs, a.1 ≠ [] ∧ ∀ c ∈ a.1, Html.isPlain c = true) (hq : Quiet attrs) (s : List Char) :
    replaceMentions highlightMentions 0 (Html.startTag name attrs ++ s) =
      Html.startTag name attrs ++ replaceMentions highlightMentions 0 s := by
  have hname : '@' ∉ '<' :: name := by simp [not_mem_of_plain hn]
  have hsplit : Html.startTag name attrs ++ s = ('<' :: name) ++ (attrs.flatMap Html.writeAttr ++ '>' :: s) := by
    simp [Html.startTag]
  rw [hsplit, replaceMentions_append hname, replaceMentions_attrs hp hq, replaceMentions_cons (by decide)]
  simp [Html.startTag]

theorem replaceMentions_endTag (hn : ∀ c ∈ name, Html.isPlain c = true) (s : List Char) :
    replaceMentions highlightMentions 0 (Html.endTag name ++ s) =
      Html.endTag name ++ replaceMentions highlightMentions 0 s := by
  refine replaceMentions_append ?_ s
  simp [Html.endTag, not_mem_of_plain hn]

theorem exists_first_mention (h : ¬ Quiet attrs) :
    ∃ before a after, attrs = before ++ a :: after ∧ Quiet before ∧ HasMention a.2 := by
  induction attrs with
  | nil => exact absurd (fun a ha => by cases ha) h
  | cons a attrs ih =>
    by_cases ha : HasMention a.2
    · exact ⟨[], a, attrs, rfl, fun b hb => (by cases hb), ha⟩
    · have htail : ¬ Quiet attrs := fun hq => h fun b hb => by
        rcases List.mem_cons.1 hb with rfl | hb
        · exact ha
        · exact hq b hb
      obtain ⟨before, b, after, rfl, hbefore, hb⟩ := ih htail
      refine ⟨a :: before, b, after, rfl, fun d hd => ?_, hb⟩
      rcases List.mem_cons.1 hd with rfl | hd
      · exact ha
      · exact hbefore d hd

variable (highlightMentions) in
theorem startTag_broken {cs : List Char} (hl : c.isLower = true) (hn : ∀ d ∈ c :: cs, Html.isPlain d = true)
    (hp : ∀ a ∈ attrs, a.1 ≠ [] ∧ ∀ d ∈ a.1, Html.isPlain d = true) (hd : (attrs.map Prod.fst).Nodup)
    (hq : ¬ Quiet attrs) (s : List Char) :
    ∀ tag ∈ (Html.tagsFrom (.data none)
      (replaceMentions highlightMentions 0 (Html.startTag (c :: cs) attrs ++ s))).head?, tag ≠ (c :: cs, attrs) := by
  obtain ⟨before, a, after, rfl, hquiet, ha⟩ := exists_first_mention hq
  have hbefore : ∀ b ∈ before, b.1 ≠ [] ∧ ∀ d ∈ b.1, Html.isPlain d = true :=
    fun b hb => hp b (List.mem_append_left _ hb)
  obtain ⟨hne, hplain⟩ := hp a (List.mem_append_right _ List.mem_cons_self)
  rw [List.map_append, List.map_cons] at hd
  have hnodup := (List.nodup_append.1 hd).1
  have hnew : a.1 ∉ before.map Prod.fst :=
    fun hm => (List.nodup_append.1 hd).2.2 _ hm _ List.mem_cons_self rfl
  have hquote : ∀ d ∈ ('"' :: (after.flatMap Html.writeAttr ++ '>' :: s)).head?, isWord d = false := by
    rintro d ⟨⟩
    decide
  obtain ⟨u, v, r, hvalue, hreplaced⟩ := replaceMentions_mention highlightMentions ha hquote
  have hname : '@' ∉ '<' :: c :: cs := by
    rw [List.mem_cons, not_or]
    exact ⟨by decide, not_mem_of_plain hn⟩
  have hsplit : Html.startTag (c :: cs) (before ++ a :: after) ++ s = ('<' :: c :: cs) ++ (before.flatMap Html.writeAttr ++
      (Html.attrOpen a.1 ++ (a.2.flatMap Html.escapeAttr ++ '"' :: (after.flatMap Html.writeAttr ++ '>' :: s)))) := by
    simp [Html.startTag, Html.writeAttr]
  rw [hsplit, replaceMentions_append hname, replaceMentions_attrs hbefore hquiet,
    replaceMentions_append (not_mem_attrOpen hplain), hreplaced]
  -- the tokenizer up to the quote that the span brings
  let t : Html.Tag := ⟨false, c :: cs, before⟩
  let wrong := u ++ "<span class=".toList
  obtain ⟨st, hst, hrun⟩ := Html.run_writeAttrs (t := ⟨false, c :: cs, []⟩) (.inl rfl) hbefore hnodup
    (Html.attrOpen a.1 ++ (u.flatMap Html.escapeAttr ++ ("<span class=".toList ++ '"' :: r)))
  have hread : Html.run (.data none) (('<' :: c :: cs) ++ (before.flatMap Html.writeAttr ++ (Html.attrOpen a.1 ++
      (u.flatMap Html.escapeAttr ++ ("<span class=".toList ++ '"' :: r))))) =
      Html.run (.afterAttributeValueQuoted (t.add a.1 wrong)) r := by
    show Html.run (if false then .endTagOpen else .tagOpen) (c :: cs ++ _) = _
    rw [Html.run_tagOpen hl hn, hrun, Html.run_attrOpen hst hne hplain, Html.run_escapedValue,
      Html.run_attributeValue (by simp), Html.run_quote]
    rfl
  have hin : (Html.State.afterAttributeValueQuoted (t.add a.1 wrong)).InTag (c :: cs) (before ++ [(a.1, wrong)]) := by
    show (t.add a.1 wrong).Extends (c :: cs) (before ++ [(a.1, wrong)])
    rw [Html.Tag.add, if_neg hnew]
    exact ⟨rfl, rfl, List.prefix_rfl⟩
  intro tag htag
  rw [Html.tagsFrom, hread] at htag
  obtain ⟨-, hprefix⟩ := Html.tagsFrom_inTag hin r tag htag
  rintro rfl
  rw [List.prefix_append_right_inj, List.cons_prefix_cons] at hprefix
  have hwrong : u ++ "<span class=".toList = u ++ '@' :: v := by
    rw [← hvalue, ← hprefix.1]
  exact absurd (List.append_cancel_left hwrong) (by simp)

variable {d : Html} {username rest : List Char}

theorem flatMap_escapeAttr_eq (h : ∀ c ∈ cs, Html.escapeAttr c = [c]) : cs.flatMap Html.escapeAttr = cs := by
  induction cs with
  | nil => rfl
  | cons c cs ih =>
    rw [List.flatMap_cons, h c List.mem_cons_self, ih fun d hd => h d (List.mem_cons_of_mem c hd)]
    rfl

theorem escapeAttr_mentionClass (username : List Char) :
    (mentionClass highlightMentions username).flatMap Html.escapeAttr = mentionClass highlightMentions username := by
  unfold mentionClass
  dsimp only
  split
  · rfl
  · rfl

theorem serialize_chars (h : ∀ c ∈ cs, Html.escapeText c = [c]) : (chars cs).serialize = cs := by
  induction cs with
  | nil => rfl
  | cons c cs ih =>
    rw [chars, Html.serialize, h c List.mem_cons_self, ih fun d hd => h d (List.mem_cons_of_mem c hd)]
    rfl

theorem serialize_mentionSpan (h : ∀ c ∈ username, isWord c = true) (next : Html) :
    (mentionSpan highlightMentions username next).serialize =
      mentionText highlightMentions username ++ next.serialize := by
  have htext : (chars ('@' :: username)).serialize = '@' :: username := by
    refine serialize_chars fun c hc => ?_
    rcases List.mem_cons.1 hc with rfl | hc
    · rfl
    · exact escapeText_of_isWord (h c hc)
  have hname : username.flatMap Html.escapeAttr = username :=
    flatMap_escapeAttr_eq fun c hc => escapeAttr_of_isWord (h c hc)
  have hvoid : "span".toList ∉ Html.voidNames := by decide
  have hclass : "<span class=\"".toList = '<' :: "span".toList ++ Html.attrOpen "class".toList := by decide
  have huser : "\" data-username=\"".toList = ['"'] ++ Html.attrOpen "data-username".toList := by decide
  have hat : "\">@".toList = ['"', '>', '@'] := by decide
  have hend : "</span>".toList = Html.endTag "span".toList := by decide
  rw [mentionSpan, Html.serialize, if_neg hvoid, htext]
  unfold mentionText
  rw [hclass, huser, hat, hend]
  simp [Html.startTag, mentionAttrs, Html.writeAttr, escapeAttr_mentionClass, hname]

theorem isWord_of_mem_wordPrefix {c : Char} (hc : c ∈ wordPrefix d) : isWord c = true := by
  induction d with
  | nil => cases hc
  | char x next ih =>
    rw [wordPrefix] at hc
    split at hc
    · next hx =>
      rcases List.mem_cons.1 hc with rfl | hc
      · exact hx
      · exact ih hc
    · cases hc
  | element _ _ _ _ _ _ => cases hc

theorem head_escapeText (c : Char) (s : List Char) :
    (Html.escapeText c ++ s).head? = some '&' ∨ (Html.escapeText c ++ s).head? = some c := by
  unfold Html.escapeText
  split
  · exact .inl rfl
  · exact .inl rfl
  · exact .inl rfl
  · exact .inl rfl
  · exact .inr rfl

theorem takeWhile_serialize (d : Html) (hrest : ∀ c ∈ rest.head?, isWord c = false) :
    (d.serialize ++ rest).takeWhile isWord = wordPrefix d := by
  induction d with
  | nil => exact takeWhile_eq_nil_iff.2 hrest
  | char c next ih =>
    rw [Html.serialize, List.append_assoc, wordPrefix]
    by_cases hc : isWord c = true
    · rw [escapeText_of_isWord hc, if_pos hc, ← ih, List.singleton_append, List.takeWhile_cons_of_pos hc]
    · rw [if_neg hc]
      refine takeWhile_eq_nil_iff.2 fun x hx => ?_
      rcases head_escapeText c (next.serialize ++ rest) with he | he
      · rw [he] at hx
        obtain rfl := Option.some.inj hx
        decide
      · rw [he] at hx
        obtain rfl := Option.some.inj hx
        exact Bool.eq_false_iff.2 hc
  | element name attrs children next _ _ =>
    rw [Html.serialize, Html.startTag]
    rfl

/-- No attribute value of the tree holds a mention. -/
def QuietTree (d : Html) : Prop := ∀ tag ∈ d.startTags, Quiet tag.2

instance (d : Html) : Decidable (QuietTree d) :=
  inferInstanceAs (Decidable (∀ tag ∈ d.startTags, Quiet tag.2))

theorem quietTree_element {children next : Html} :
    QuietTree (.element name attrs children next) ↔ Quiet attrs ∧ QuietTree children ∧ QuietTree next := by
  simp [QuietTree, Html.startTags, or_imp, forall_and]

theorem replaceMentions_char {next : Html} (h : ¬ (c = '@' ∧ wordPrefix next ≠ []))
    (hrest : ∀ c ∈ rest.head?, isWord c = false) :
    replaceMentions highlightMentions 0 (Html.escapeText c ++ (next.serialize ++ rest)) =
      Html.escapeText c ++ replaceMentions highlightMentions 0 (next.serialize ++ rest) := by
  by_cases hc : c = '@'
  · subst c
    have hname : wordPrefix next = [] := by_contra fun hne => h ⟨rfl, hne⟩
    have hnone : (next.serialize ++ rest).takeWhile isWord = [] :=
      by rw [takeWhile_serialize next hrest, hname]
    exact replaceMentions_at (takeWhile_eq_nil_iff.1 hnone)
  · exact replaceMentions_append (not_mem_escapeText hc) _

theorem isWord_of_skip {next : Html} {skip : Nat} (h : skip + 1 ≤ (wordPrefix (.char c next)).length) :
    isWord c = true ∧ skip ≤ (wordPrefix next).length := by
  rw [wordPrefix] at h
  split at h
  · next hc => exact ⟨hc, Nat.le_of_succ_le_succ h⟩
  · cases h

theorem replaceMentions_serialize (hd : d.WellFormed) (hq : QuietTree d) {skip : Nat}
    (hskip : skip ≤ (wordPrefix d).length) (hrest : ∀ c ∈ rest.head?, isWord c = false) :
    replaceMentions highlightMentions skip (d.serialize ++ rest) =
      (mentions highlightMentions skip d).serialize ++ replaceMentions highlightMentions 0 rest := by
  induction d generalizing skip rest with
  | nil =>
    obtain rfl := Nat.le_zero.1 hskip
    rfl
  | char c next ih =>
    rw [Html.serialize, List.append_assoc]
    cases skip with
    | succ skip =>
      obtain ⟨hc, hskip⟩ := isWord_of_skip hskip
      rw [escapeText_of_isWord hc]
      exact ih hd hq hskip hrest
    | zero =>
      rw [mentions]
      by_cases hc : c = '@' ∧ wordPrefix next ≠ []
      · obtain ⟨rfl, hname⟩ := hc
        show replaceMentions highlightMentions 0 ('@' :: (next.serialize ++ rest)) = _
        rw [if_pos ⟨rfl, hname⟩, replaceMentions_name (takeWhile_serialize next hrest) hname,
          ih hd hq (Nat.le_refl _) hrest, serialize_mentionSpan fun x hx => isWord_of_mem_wordPrefix hx,
          List.append_assoc]
      · rw [if_neg hc, replaceMentions_char hc hrest, ih hd hq (Nat.zero_le _) hrest, Html.serialize,
          List.append_assoc]
  | element name attrs children next ihc ihn =>
    obtain rfl := Nat.le_zero.1 hskip
    obtain ⟨-, hn, hp, -, hvoid, hc, hnext⟩ := hd
    obtain ⟨hqa, hqc, hqn⟩ := quietTree_element.1 hq
    rw [Html.serialize, mentions, Html.serialize, List.append_assoc, List.append_assoc,
      replaceMentions_startTag hn hp hqa]
    by_cases hv : name ∈ Html.voidNames
    · rw [if_pos hv, if_pos hv, List.nil_append, ihn hnext hqn (Nat.zero_le _) hrest]
      simp
    · have hend : ∀ c ∈ (Html.endTag name ++ (next.serialize ++ rest)).head?, isWord c = false := by
        rintro c ⟨⟩
        decide
      rw [if_neg hv, if_neg hv, List.append_assoc, ihc hc hqc (Nat.zero_le _) hend, replaceMentions_endTag hn,
        ihn hnext hqn (Nat.zero_le _) hrest]
      simp

theorem wellFormed_chars (cs : List Char) : (chars cs).WellFormed := by
  induction cs with
  | nil => trivial
  | cons c cs ih => exact ih

theorem wellFormed_mentionSpan {next : Html} (h : next.WellFormed) :
    (mentionSpan highlightMentions username next).WellFormed := by
  have hnames : ∀ n ∈ ["class".toList, "data-username".toList], n ≠ [] ∧ ∀ c ∈ n, Html.isPlain c = true := by
    simp [Html.isPlain]
  have hdistinct : ["class".toList, "data-username".toList].Nodup := by decide
  have hvoid : "span".toList ∉ Html.voidNames := by decide
  refine ⟨⟨'s', _, rfl, by decide⟩, by simp [Html.isPlain], fun a ha => ?_, hdistinct, fun hv => absurd hv hvoid,
    wellFormed_chars _, h⟩
  exact hnames a.1 (List.mem_map_of_mem ha)

theorem wellFormed_mentions (hd : d.WellFormed) (skip : Nat) :
    (mentions highlightMentions skip d).WellFormed := by
  induction d generalizing skip with
  | nil => cases skip <;> trivial
  | char c next ih =>
    cases skip with
    | succ skip => exact ih hd skip
    | zero =>
      rw [mentions]
      split
      · exact wellFormed_mentionSpan (ih hd _)
      · exact ih hd 0
  | element name attrs children next ihc ihn =>
    obtain ⟨hl, hn, hp, hdistinct, hvoid, hc, hnext⟩ := hd
    have hchildren : name ∈ Html.voidNames → mentions highlightMentions 0 children = .nil := fun hv => by
      rw [hvoid hv]; rfl
    cases skip <;> exact ⟨hl, hn, hp, hdistinct, hchildren, ihc hc 0, ihn hnext 0⟩

/-! ### A mention in a tag -/

theorem startTags_chars (cs : List Char) : (chars cs).startTags = [] := by
  induction cs with
  | nil => rfl
  | cons c cs ih => exact ih

theorem startTags_mentionSpan (next : Html) : (mentionSpan highlightMentions username next).startTags =
    ("span".toList, mentionAttrs highlightMentions username) :: next.startTags := by
  rw [mentionSpan, Html.startTags, startTags_chars]
  rfl

/-- With a mention in an attribute value the tags that are read differ from those of the tree with its
mentions. -/
theorem startTags_differ (hd : d.WellFormed) (hq : ¬ QuietTree d) {skip : Nat} (hskip : skip ≤ (wordPrefix d).length)
    (hrest : ∀ c ∈ rest.head?, isWord c = false) :
    ¬ (mentions highlightMentions skip d).startTags <+:
      Html.tagsFrom (.data none) (replaceMentions highlightMentions skip (d.serialize ++ rest)) := by
  induction d generalizing skip rest with
  | nil => exact absurd (fun tag ht => by cases ht) hq
  | char c next ih =>
    rw [Html.serialize, List.append_assoc]
    cases skip with
    | succ skip =>
      obtain ⟨hc, hskip⟩ := isWord_of_skip hskip
      rw [escapeText_of_isWord hc]
      exact ih hd hq hskip hrest
    | zero =>
      rw [mentions]
      by_cases hc : c = '@' ∧ wordPrefix next ≠ []
      · obtain ⟨rfl, hname⟩ := hc
        have hspan : mentionText highlightMentions (wordPrefix next) =
            (mentionSpan highlightMentions (wordPrefix next) .nil).serialize := by
          rw [serialize_mentionSpan fun x hx => isWord_of_mem_wordPrefix hx, Html.serialize, List.append_nil]
        have hwf : (mentionSpan highlightMentions (wordPrefix next) .nil).WellFormed :=
          wellFormed_mentionSpan trivial
        show ¬ _ <+: Html.tagsFrom _ (replaceMentions highlightMentions 0 ('@' :: (next.serialize ++ rest)))
        rw [if_pos ⟨rfl, hname⟩, replaceMentions_name (takeWhile_serialize next hrest) hname, hspan, Html.tagsFrom,
          Html.run_serialize hwf, List.filterMap_append, Html.startTags_tokens _ hwf, startTags_mentionSpan,
          startTags_mentionSpan]
        intro hprefix
        exact ih hd hq (Nat.le_refl _) hrest (List.cons_prefix_cons.1 hprefix).2
      · rw [if_neg hc, replaceMentions_char hc hrest, Html.tagsFrom, Html.run_escapeText]
        exact ih hd hq (Nat.zero_le _) hrest
  | element name attrs children next ihc ihn =>
    obtain rfl := Nat.le_zero.1 hskip
    obtain ⟨⟨c, cs, rfl, hl⟩, hn, hp, hdistinct, hvoid, hc, hnext⟩ := hd
    rw [Html.serialize, mentions, List.append_assoc, List.append_assoc, Html.startTags]
    intro hprefix
    by_cases hqa : Quiet attrs
    · rw [replaceMentions_startTag hn hp hqa, Html.tagsFrom, Html.run_startTag hl hn hp hdistinct] at hprefix
      have hbody := (List.cons_prefix_cons.1 hprefix).2
      by_cases hv : c :: cs ∈ Html.voidNames
      · have hqc : QuietTree children := by
          rw [hvoid hv]
          exact fun tag ht => by cases ht
        have hqn : ¬ QuietTree next := fun hqn => hq (quietTree_element.2 ⟨hqa, hqc, hqn⟩)
        rw [if_pos hv, hvoid hv] at hbody
        exact ihn hnext hqn (Nat.zero_le _) hrest hbody
      · have hend : ∀ x ∈ (Html.endTag (c :: cs) ++ (next.serialize ++ rest)).head?, isWord x = false := by
          rintro x ⟨⟩
          decide
        rw [if_neg hv, List.append_assoc] at hbody
        by_cases hqc : QuietTree children
        · have hqn : ¬ QuietTree next := fun hqn => hq (quietTree_element.2 ⟨hqa, hqc, hqn⟩)
          have hwf : (mentions highlightMentions 0 children).WellFormed := wellFormed_mentions hc 0
          rw [replaceMentions_serialize hc hqc (Nat.zero_le _) hend, replaceMentions_endTag hn,
            Html.run_serialize hwf, Html.run_endTag hl hn, List.filterMap_append, Html.startTags_tokens _ hwf,
            List.prefix_append_right_inj] at hbody
          exact ihn hnext hqn (Nat.zero_le _) hrest hbody
        · exact ihc hc hqc (Nat.zero_le _) hend ((List.prefix_append _ _).trans hbody)
    · obtain ⟨tags, htags⟩ := hprefix
      refine startTag_broken highlightMentions hl hn hp hdistinct hqa
        ((if c :: cs ∈ Html.voidNames then [] else children.serialize ++ Html.endTag (c :: cs)) ++ (next.serialize ++ rest))
        (c :: cs, attrs) ?_ rfl
      rw [← htags]
      rfl

/-! ### The rendered message -/

theorem renderMarkdownSync_eq {libs : MarkdownLibs} (h : libs.sanitizedHtml "" = "") (markdown : String) :
    renderMarkdownSync highlightMentions libs markdown =
      String.ofList (replaceMentions highlightMentions 0 (libs.sanitizedHtml markdown).toList) := by
  rw [renderMarkdownSync]
  split
  · next hm =>
    rw [hm, h]
    rfl
  · rfl

/-- The start tag of a mention. -/
def IsMentionTag (highlightMentions : Option String) (tag : List Char × Attrs) : Prop :=
  ∃ username, tag = ("span".toList, mentionAttrs highlightMentions username)

theorem startTags_mentions (d : Html) (skip : Nat) :
    ∀ tag ∈ (mentions highlightMentions skip d).startTags, tag ∈ d.startTags ∨
      IsMentionTag highlightMentions tag := by
  induction d generalizing skip with
  | nil =>
    cases skip <;> rintro tag ⟨⟩
  | char c next ih =>
    cases skip with
    | succ skip => exact ih skip
    | zero =>
      rw [mentions]
      split
      · rw [startTags_mentionSpan]
        intro tag ht
        rcases List.mem_cons.1 ht with rfl | ht
        · exact .inr ⟨_, rfl⟩
        · exact ih _ tag ht
      · exact ih 0
  | element name attrs children next ihc ihn =>
    have hboth : ∀ tag ∈ (name, attrs) :: ((mentions highlightMentions 0 children).startTags ++
        (mentions highlightMentions 0 next).startTags), tag ∈ (Html.element name attrs children next).startTags ∨
          IsMentionTag highlightMentions tag := by
      intro tag ht
      rcases List.mem_cons.1 ht with rfl | ht
      · exact .inl List.mem_cons_self
      · rcases List.mem_append.1 ht with ht | ht
        · exact (ihc 0 tag ht).imp_left fun h => List.mem_cons_of_mem _ (List.mem_append_left _ h)
        · exact (ihn 0 tag ht).imp_left fun h => List.mem_cons_of_mem _ (List.mem_append_right _ h)
    cases skip <;> exact hboth

/-- The rendered message reads as the sanitized tree with its mentions, and so has no tag but the allowed
ones and those of the mentions, if and only if no attribute value of the sanitized tree holds a mention.
The libraries turn the empty text into the empty HTML. -/
theorem renderMarkdownSync_safe_iff (libs : MarkdownLibs) (markdown : String) (highlightMentions : Option String)
    (d : Html) (hempty : libs.sanitizedHtml "" = "")
    (hs : libs.sanitizedHtml markdown = String.ofList d.serialize)
    (hd : d.WellFormed) (ha : ∀ tag ∈ d.startTags, Allowed tag) :
    (Html.parse (renderMarkdownSync highlightMentions libs markdown).toList = mentions highlightMentions 0 d ∧
      ∀ tag ∈ (Html.parse (renderMarkdownSync highlightMentions libs markdown).toList).startTags,
        Allowed tag ∨ IsMentionTag highlightMentions tag) ↔ QuietTree d := by
  have htext : (renderMarkdownSync highlightMentions libs markdown).toList =
      replaceMentions highlightMentions 0 (d.serialize ++ []) := by
    rw [renderMarkdownSync_eq hempty, hs, String.toList_ofList, String.toList_ofList, List.append_nil]
  have hnil : ∀ c ∈ ([] : List Char).head?, isWord c = false := by rintro c ⟨⟩
  rw [htext]
  constructor
  · rintro ⟨hparse, -⟩
    by_contra hq
    have hdiffer : ¬ (mentions highlightMentions 0 d).startTags <+:
        Html.tagsFrom (.data none) (replaceMentions highlightMentions 0 (d.serialize ++ [])) :=
      startTags_differ hd hq (Nat.zero_le _) hnil
    rw [← Html.startTags_parse, hparse] at hdiffer
    exact hdiffer List.prefix_rfl
  · intro hq
    have hparse : Html.parse (replaceMentions highlightMentions 0 (d.serialize ++ [])) = mentions highlightMentions 0 d := by
      rw [replaceMentions_serialize hd hq (Nat.zero_le _) hnil, replaceMentions, List.append_nil,
        Html.parse_serialize (wellFormed_mentions hd 0)]
    rw [hparse]
    exact ⟨rfl, fun tag ht => (startTags_mentions d 0 tag ht).imp_left (ha tag)⟩

/-- The libraries at one text of which the sanitizer takes nothing away. -/
def libsAt (markdown html : String) : MarkdownLibs where
  emojiMap := fun _ => none
  marked := some fun text => if text = markdown then html else ""
  sanitize := fun _ _ html => html

theorem renderMarkdownSync_safe_iff_text :
    Html.parse (renderMarkdownSync none (libsAt "hi @bob" "<p>hi @bob</p>\n") "hi @bob").toList =
      .element "p".toList [] (mentions none 0 (chars "hi @bob".toList)) (.char '\n' .nil) :=
  ((renderMarkdownSync_safe_iff (libsAt "hi @bob" "<p>hi @bob</p>\n") "hi @bob" none
    (.element "p".toList [] (chars "hi @bob".toList) (.char '\n' .nil))
    (by decide) (by decide) (by decide) (by decide)).2 (by decide)).1

/-- A mention in the target of a link ends the value, and the link has attributes that nobody allowed. -/
theorem mention_in_link :
    let libs := libsAt "[mail](mailto:a@b.c)" "<p><a href=\"mailto:a@b.c\">mail</a></p>\n"
    let d := Html.element "p".toList []
      (.element "a".toList [("href".toList, "mailto:a@b.c".toList)] (chars "mail".toList) .nil) (.char '\n' .nil)
    libs.sanitizedHtml "" = "" ∧ libs.sanitizedHtml "[mail](mailto:a@b.c)" = String.ofList d.serialize ∧
      d.WellFormed ∧ (∀ tag ∈ d.startTags, Allowed tag) ∧
      ∃ tag ∈ (Html.parse (renderMarkdownSync none libs "[mail](mailto:a@b.c)").toList).startTags,
        tag.1 = "a".toList ∧ ("href".toList, "mailto:a<span class=".toList) ∈ tag.2 ∧ ("mention".toList, []) ∈ tag.2 ∧
          ¬ Allowed tag ∧ ¬ IsMentionTag none tag := by
  refine ⟨by decide, by decide, by decide, by decide, ?_⟩
  have htags : (Html.parse (renderMarkdownSync none (libsAt "[mail](mailto:a@b.c)"
      "<p><a href=\"mailto:a@b.c\">mail</a></p>\n") "[mail](mailto:a@b.c)").toList).startTags =
      [("p".toList, []), ("a".toList, [("href".toList, "mailto:a<span class=".toList), ("mention".toList, []),
        ("text-brand".toList, []), ("font-semibold".toList, []), ("hover:underline".toList, []),
        ("cursor-pointer\"".toList, []), ("data-username".toList, ['b'])])] := by
    decide +kernel
  rw [htags]
  refine ⟨_, List.mem_cons_of_mem _ List.mem_cons_self, by decide, by decide, by decide, by decide, ?_⟩
  rintro ⟨username, h⟩
  have hname : "a".toList = "span".toList := congrArg Prod.fst h
  exact absurd hname (by decide)

end Rustchat
