import Rustchat.Lib.Assoc
import Rustchat.Lib.ByteSlice
import Rustchat.Lib.Html
import Rustchat.Lib.Json

/-!
# Email templates (`services/template_renderer.rs`)

One renderer writes the subject, the text and the HTML of an email, and it is registered not to escape what it inserts.
`independent_of_silent` and `silent_of_independent` say which HTML templates have the same tags for all values of their
variables. A template is what Handlebars has parsed: literal text and placeholders; blocks and partials are left out, and
so are the texts of errors.
-/

open Html

namespace Rustchat

namespace TemplateRenderer

inductive Param
  | path (name : String)
  | literal (value : Json)

/-- `{{name}}`, or a call of one of the helpers that are registered. What the others write of a literal is text of the
template. -/
inductive Placeholder
  | value (name : String)
  | eq (param0 param1 : Option Param)
  | ne (param0 param1 : Option Param)
  | upper (name : String)
  | lower (name : String)
  | truncate (name : String) (length : Option Param)
  | formatDate (name : String)

inductive Piece
  | text (text : List Char)
  | placeholder (p : Placeholder)

abbrev Template := List Piece

/-- What the crate and the standard library do: parsing, the text of a value that is no string, whether a missing
parameter of a helper is an error in strict mode, and the cases of a text. -/
structure Handlebars where
  parse : List Char → Option Template
  shown : Json → List Char
  strictParams : Bool
  toUppercase : List Char → List Char
  toLowercase : List Char → List Char
  uppercase_ascii : ∀ text, (∀ c ∈ text, c.toNat < 128) → toUppercase text = text.map Char.toUpper
  lowercase_ascii : ∀ text, (∀ c ∈ text, c.toNat < 128) → toLowercase text = text.map Char.toLower

abbrev Variables := Assoc String Json

/-- `handlebars::no_escape` -/
def noEscape (data : List Char) : List Char := data

section Render

variable (hb : Handlebars) (vars : Variables)

/-- The value of a parameter, `some none` where it is missing. -/
def resolve : Option Param → Option (Option Json)
  | none => some none
  | some (.literal value) => some (some value)
  | some (.path name) =>
    match vars.lookup name with
    | some value => some (some value)
    | none => if hb.strictParams then none else some none

/-- `.as_str().unwrap_or("")` -/
def asText (value : Option Json) : List Char := ((value.bind Json.asStr).getD "").toList

/-- `.as_i64().unwrap_or(100) as usize` -/
def asLength (value : Option Json) : ℕ := (((value.bind (Json.asInt 64)).getD 100) % 2 ^ 64).toNat

def truncateText (text : List Char) (length : ℕ) : Option (List Char) :=
  if length < String.utf8Len text then (ByteSlice.takeBytes length text).map (· ++ "...".toList) else some text

def valueText : Json → List Char
  | .str text => text.toList
  | value => hb.shown value

/-- `none` is an error or a panic. -/
def Placeholder.write : Placeholder → Option (List Char)
  | value name => (vars.lookup name).map fun value => noEscape (valueText hb value)
  | eq param0 param1 =>
    (resolve hb vars param0).bind fun v => (resolve hb vars param1).map fun w =>
      if asText v = asText w then "true".toList else []
  | ne param0 param1 =>
    (resolve hb vars param0).bind fun v => (resolve hb vars param1).map fun w =>
      if asText v ≠ asText w then "true".toList else []
  | upper name => (resolve hb vars (some (.path name))).map fun v => hb.toUppercase (asText v)
  | lower name => (resolve hb vars (some (.path name))).map fun v => hb.toLowercase (asText v)
  | truncate name length =>
    (resolve hb vars (some (.path name))).bind fun v => (resolve hb vars length).bind fun l =>
      truncateText (asText v) (asLength l)
  | formatDate name => (resolve hb vars (some (.path name))).map asText

def render : Template → Option (List Char)
  | [] => some []
  | .text text :: template => (render template).map (text ++ ·)
  | .placeholder p :: template => (p.write hb vars).bind fun output => (render template).map (output ++ ·)

def renderTemplate (template : List Char) : Option (List Char) := (hb.parse template).bind (render hb vars)

end Render

structure TemplateVariable where
  name : String
  required : Bool
  defaultValue : Option String

structure EmailTemplateVersion where
  subject : List Char
  bodyText : List Char
  bodyHtml : List Char
  variablesSchema : List TemplateVariable

structure RenderContext where
  vars : Variables
  strictMode : Bool

structure RenderedEmail where
  subject : List Char
  bodyText : List Char
  bodyHtml : Option (List Char)

def validateRequired (context : RenderContext) (schema : List TemplateVariable) : Bool :=
  schema.all fun var => !(var.required && (context.vars.lookup var.name).isNone && var.defaultValue.isNone)

def renderEmail (hb : Handlebars) (template : EmailTemplateVersion) (context : RenderContext) : Option RenderedEmail :=
  if context.strictMode ∧ ¬ validateRequired context template.variablesSchema then none
  else
    (renderTemplate hb context.vars template.subject).bind fun subject =>
    (renderTemplate hb context.vars template.bodyText).bind fun bodyText =>
    if template.bodyHtml = [] then some ⟨subject, bodyText, none⟩
    else (renderTemplate hb context.vars template.bodyHtml).map fun bodyHtml => ⟨subject, bodyText, some bodyHtml⟩

/-- Every placeholder stands between the tags of the literal text. -/
def TextPositions : State → Template → Prop
  | _, [] => True
  | st, .text text :: template => TextPositions (after st text) template
  | st, .placeholder _ :: template => (∃ ref, st = .data ref) ∧ TextPositions st template

def skeleton (template : Template) : List Char :=
  template.flatMap fun piece => match piece with
    | .text text => text
    | .placeholder _ => []

def placeholders (template : Template) : List Placeholder :=
  template.filterMap fun piece => match piece with
    | .text _ => none
    | .placeholder p => some p

/-- The tags of what is rendered do not depend on the variables. -/
def Independent (hb : Handlebars) (html : List Char) : Prop :=
  ∀ vars vars' output output', renderTemplate hb vars html = some output →
    renderTemplate hb vars' html = some output' → tags (.data none) output = tags (.data none) output'

def fixedLength : Option Param → Option ℕ
  | none => some (asLength none)
  | some (.literal value) => some (asLength (some value))
  | some (.path _) => none

/-- Nothing of a value is written. -/
def Placeholder.Silent : Placeholder → Prop
  | eq _ _ | ne _ _ => True
  | truncate _ length => fixedLength length = some 0
  | _ => False

/-- One or two bytes of a value are written, not enough for a tag. -/
def Placeholder.Short : Placeholder → Prop
  | truncate _ length => fixedLength length = some 1 ∨ fixedLength length = some 2
  | _ => False

section Silent

variable {hb : Handlebars} {vars : Variables} {p : Placeholder} {template : Template} {output : List Char} {st st' : State}

theorem plain_ite (c : Prop) [Decidable c] : '<' ∉ if c then "true".toList else [] := by
  split
  · decide
  · exact List.not_mem_nil

theorem truncateText_zero (text : List Char) : truncateText text 0 = some [] ∨ truncateText text 0 = some "...".toList := by
  rw [truncateText]
  split
  · right
    cases text <;> rfl
  · left
    rename_i h
    cases text with
    | nil => rfl
    | cons c text =>
      rw [String.utf8Len_cons] at h
      have := c.utf8Size_pos
      omega

theorem asLength_of_fixed {length : Option Param} {n : ℕ} (hn : fixedLength length = some n) {l : Option Json}
    (hl : resolve hb vars length = some l) : asLength l = n := by
  cases length with
  | none =>
    cases hl
    exact Option.some.inj hn
  | some param =>
    cases param with
    | path name => cases hn
    | literal value =>
      cases hl
      exact Option.some.inj hn

theorem plain_of_silent (hp : p.Silent) (hw : p.write hb vars = some output) : '<' ∉ output := by
  cases p with
  | eq param0 param1 =>
    obtain ⟨v, -, hw⟩ := Option.bind_eq_some_iff.1 hw
    obtain ⟨w, -, rfl⟩ := Option.map_eq_some_iff.1 hw
    exact plain_ite _
  | ne param0 param1 =>
    obtain ⟨v, -, hw⟩ := Option.bind_eq_some_iff.1 hw
    obtain ⟨w, -, rfl⟩ := Option.map_eq_some_iff.1 hw
    exact plain_ite _
  | truncate name length =>
    obtain ⟨v, -, hw⟩ := Option.bind_eq_some_iff.1 hw
    obtain ⟨l, hl, hw⟩ := Option.bind_eq_some_iff.1 hw
    rw [asLength_of_fixed hp hl] at hw
    rcases truncateText_zero (asText v) with h | h
    · obtain rfl := Option.some.inj (h.symm.trans hw)
      exact List.not_mem_nil
    · obtain rfl := Option.some.inj (h.symm.trans hw)
      decide
  | value name => cases hp
  | upper name => cases hp
  | lower name => cases hp
  | formatDate name => cases hp

theorem tags_render (hsilent : ∀ p ∈ placeholders template, p.Silent) (halike : st.Alike st')
    (ht : TextPositions st template) (hr : render hb vars template = some output) :
    tags st' output = tags st (skeleton template) := by
  induction template generalizing st st' output with
  | nil =>
    cases hr
    rw [tags_nil]
    exact (tags_nil st).symm
  | cons piece template ih =>
    cases piece with
    | text text =>
      obtain ⟨rest, hrest, rfl⟩ := Option.map_eq_some_iff.1 hr
      obtain ⟨hbefore, hafter⟩ := halike.tagsBefore text
      have hskeleton : skeleton (.text text :: template) = text ++ skeleton template := rfl
      rw [hskeleton, tags_append, tags_append, hbefore, ih hsilent hafter ht hrest]
    | placeholder p =>
      obtain ⟨written, hw, hr⟩ := Option.bind_eq_some_iff.1 hr
      obtain ⟨rest, hrest, rfl⟩ := Option.map_eq_some_iff.1 hr
      obtain ⟨⟨ref, rfl⟩, ht⟩ := ht
      obtain ⟨ref', rfl⟩ := halike.data
      obtain ⟨hnone, ref'', hafter⟩ := tagsBefore_plain ref' (plain_of_silent (hsilent p (by simp [placeholders])) hw)
      have hskeleton : skeleton (.placeholder p :: template) = skeleton template := rfl
      rw [hskeleton, tags_append, hnone, hafter, List.nil_append]
      exact ih (fun q hq => hsilent q (by simp [placeholders] at hq ⊢; exact .inr hq)) (.inr ⟨_, _, rfl, rfl⟩) ht hrest

end Silent

/-! ### Templates that write a value -/

section Loud

variable {hb : Handlebars} {p : Placeholder} {template : Template} {known : List String} {name : String}
  {target : Option String} {st st' : State}

def Param.names : Option Param → List String
  | some (.path name) => [name]
  | _ => []

def Placeholder.names : Placeholder → List String
  | value name | upper name | lower name | formatDate name => [name]
  | eq param0 param1 | ne param0 param1 => Param.names param0 ++ Param.names param1
  | truncate name length => name :: Param.names length

def Placeholder.shows (target : Option String) : Placeholder → Bool
  | value name | upper name | lower name | formatDate name => some name = target
  | truncate name length => some name = target && fixedLength length ≠ some 0
  | eq _ _ | ne _ _ => false

def textOf (target : Option String) (name : String) : String := if some name = target then "<b>" else ""

/-- A start tag in the variable `target`, and nothing in the others. -/
def assign (target : Option String) (names : List String) : Variables :=
  (names.map fun name => (name, Json.str (textOf target name))).foldl (fun vars p => vars.insert p.1 p.2) ∅

theorem lookup_assign (h : name ∈ known) : (assign target known).lookup name = some (.str (textOf target name)) := by
  refine Assoc.lookup_foldl_insert ?_ (.inl ⟨(name, .str (textOf target name)), List.mem_map_of_mem h, rfl⟩)
  rintro p hp rfl
  obtain ⟨n, -, rfl⟩ := List.mem_map.1 hp
  rfl

theorem resolve_assign (hb : Handlebars) (target : Option String) {param : Option Param}
    (h : ∀ n ∈ Param.names param, n ∈ known) :
    ∃ v, resolve hb (assign target known) param = some v := by
  match param with
  | none => exact ⟨none, rfl⟩
  | some (.literal value) => exact ⟨some value, rfl⟩
  | some (.path name) => exact ⟨_, by rw [resolve, lookup_assign (h name (by simp [Param.names]))]⟩

def Bold (output : List Char) : Prop := output = "<b>".toList ∨ output = "<B>".toList

def Brings (bold : Bool) (output : List Char) : Prop := if bold then Bold output else '<' ∉ output

theorem tagsBefore_brings {bold : Bool} {output : List Char} (h : Brings bold output) (ref : Option (List Char)) :
    (tagsBefore (.data ref) output).length = bold.toNat ∧ ∃ ref', after (.data ref) output = .data ref' := by
  cases bold with
  | false =>
    obtain ⟨hnone, hafter⟩ := tagsBefore_plain ref h
    exact ⟨by rw [hnone]; rfl, hafter⟩
  | true =>
    have hrefs := filter_map_char (refEnd ref)
    rcases h with rfl | rfl
    · refine ⟨?_, none, rfl⟩
      show (((refEnd ref).map Token.char).filter Token.isTag ++ tagsBefore .tagOpen ['b', '>']).length = 1
      rw [hrefs]
      rfl
    · refine ⟨?_, none, rfl⟩
      show (((refEnd ref).map Token.char).filter Token.isTag ++ tagsBefore .tagOpen ['B', '>']).length = 1
      rw [hrefs]
      rfl

theorem brings_textOf : Brings (some name = target) (textOf target name).toList := by
  rw [Brings, textOf]
  by_cases h : some name = target
  · simp [h, Bold]
  · simp [h]

theorem ascii_textOf : ∀ c ∈ (textOf target name).toList, c.toNat < 128 := by
  rw [textOf]
  split <;> simp

theorem brings_upper : Brings (some name = target) (hb.toUppercase (textOf target name).toList) := by
  rw [hb.uppercase_ascii _ ascii_textOf, Brings, textOf]
  by_cases h : some name = target
  · simp [h, Bold]
  · simp [h]

theorem brings_lower : Brings (some name = target) (hb.toLowercase (textOf target name).toList) := by
  rw [hb.lowercase_ascii _ ascii_textOf, Brings, textOf]
  by_cases h : some name = target
  · simp [h, Bold]
  · simp [h]

theorem truncateText_of_three_le {length : ℕ} (h : 3 ≤ length) :
    truncateText (textOf target name).toList length = some (textOf target name).toList := by
  refine if_neg ?_
  rw [textOf]
  split
  · have hlen : String.utf8Len "<b>".toList = 3 := rfl
    omega
  · simp

theorem asLength_assign {length : Option Param} (h : ∀ n ∈ Param.names length, n ∈ known) {l : Option Json}
    (hl : resolve hb (assign target known) length = some l) :
    fixedLength length = some (asLength l) ∨ fixedLength length = none ∧ asLength l = 100 := by
  match length with
  | none =>
    cases hl
    exact .inl rfl
  | some (.literal value) =>
    cases hl
    exact .inl rfl
  | some (.path name) =>
    rw [resolve, lookup_assign (h name (by simp [Param.names]))] at hl
    cases hl
    exact .inr ⟨rfl, rfl⟩

theorem write_truncate_assign (hb : Handlebars) (target : Option String) {length : Option Param}
    (hshort : ¬ (Placeholder.truncate name length).Short) (h : ∀ n ∈ (Placeholder.truncate name length).names, n ∈ known) :
    ∃ output, (Placeholder.truncate name length).write hb (assign target known) = some output ∧
      Brings ((Placeholder.truncate name length).shows target) output := by
  have hlength : ∀ n ∈ Param.names length, n ∈ known := fun n hn => h n (by simp [Placeholder.names, hn])
  obtain ⟨l, hl⟩ := resolve_assign hb target hlength
  have hwrite : (Placeholder.truncate name length).write hb (assign target known) =
      truncateText (textOf target name).toList (asLength l) := by
    rw [Placeholder.write, resolve, lookup_assign (h name (by simp [Placeholder.names])), hl]
    rfl
  rw [hwrite]
  by_cases hzero : fixedLength length = some 0
  · -- nothing of the value is left
    rcases asLength_assign hlength hl with hfix | ⟨hnone, -⟩
    · have hl0 : asLength l = 0 := Option.some.inj (hfix.symm.trans hzero)
      rw [hl0]
      have hshows : (Placeholder.truncate name length).shows target = false := by simp [Placeholder.shows, hzero]
      rw [hshows]
      rcases truncateText_zero (textOf target name).toList with h | h
      · exact ⟨_, h, by simp [Brings]⟩
      · exact ⟨_, h, by simp [Brings]⟩
    · rw [hnone] at hzero
      cases hzero
  · have hthree : 3 ≤ asLength l := by
      rcases asLength_assign hlength hl with hfix | ⟨-, hl⟩
      · have h0 : asLength l ≠ 0 := fun h0 => hzero (h0 ▸ hfix)
        have h1 : asLength l ≠ 1 := fun h1 => hshort (.inl (h1 ▸ hfix))
        have h2 : asLength l ≠ 2 := fun h2 => hshort (.inr (h2 ▸ hfix))
        omega
      · omega
    have hshows : (Placeholder.truncate name length).shows target = decide (some name = target) := by
      simp [Placeholder.shows, hzero]
    rw [hshows]
    exact ⟨_, truncateText_of_three_le hthree, brings_textOf⟩

theorem write_assign (hb : Handlebars) (target : Option String) (hshort : ¬ p.Short) (h : ∀ n ∈ p.names, n ∈ known) :
    ∃ output, p.write hb (assign target known) = some output ∧ Brings (p.shows target) output := by
  cases p with
  | value name =>
    refine ⟨_, by rw [Placeholder.write, lookup_assign (h name (by simp [Placeholder.names]))]; rfl, brings_textOf⟩
  | upper name =>
    refine ⟨_, by rw [Placeholder.write, resolve, lookup_assign (h name (by simp [Placeholder.names]))]; rfl, brings_upper⟩
  | lower name =>
    refine ⟨_, by rw [Placeholder.write, resolve, lookup_assign (h name (by simp [Placeholder.names]))]; rfl, brings_lower⟩
  | formatDate name =>
    refine ⟨_, by rw [Placeholder.write, resolve, lookup_assign (h name (by simp [Placeholder.names]))]; rfl, brings_textOf⟩
  | eq param0 param1 =>
    obtain ⟨v, hv⟩ := resolve_assign hb target fun n hn => h n (List.mem_append_left (Param.names param1) hn)
    obtain ⟨w, hw⟩ := resolve_assign hb target fun n hn => h n (List.mem_append_right (Param.names param0) hn)
    exact ⟨_, by rw [Placeholder.write, hv, hw]; rfl, plain_ite _⟩
  | ne param0 param1 =>
    obtain ⟨v, hv⟩ := resolve_assign hb target fun n hn => h n (List.mem_append_left (Param.names param1) hn)
    obtain ⟨w, hw⟩ := resolve_assign hb target fun n hn => h n (List.mem_append_right (Param.names param0) hn)
    exact ⟨_, by rw [Placeholder.write, hv, hw]; rfl, plain_ite _⟩
  | truncate name length => exact write_truncate_assign hb target hshort h

theorem length_tags_render (hb : Handlebars) (target : Option String) (hshort : ∀ p ∈ placeholders template, ¬ p.Short)
    (hknown : ∀ p ∈ placeholders template, ∀ n ∈ p.names, n ∈ known) (halike : st.Alike st') (ht : TextPositions st template) :
    ∃ output, render hb (assign target known) template = some output ∧ (tags st' output).length =
      (tags st (skeleton template)).length + (placeholders template).countP (Placeholder.shows target) := by
  induction template generalizing st st' with
  | nil => exact ⟨[], rfl, by rw [tags_nil]; simp [skeleton, placeholders, tags_nil]⟩
  | cons piece template ih =>
    cases piece with
    | text text =>
      obtain ⟨hbefore, hafter⟩ := halike.tagsBefore text
      obtain ⟨rest, hrest, hlength⟩ := ih hshort hknown hafter ht
      have hskeleton : skeleton (.text text :: template) = text ++ skeleton template := rfl
      refine ⟨text ++ rest, by rw [render, hrest]; rfl, ?_⟩
      rw [hskeleton, tags_append, tags_append, hbefore, List.length_append, List.length_append, hlength, Nat.add_assoc]
      rfl
    | placeholder p =>
      obtain ⟨⟨ref, rfl⟩, ht⟩ := ht
      obtain ⟨ref', rfl⟩ := halike.data
      have hplaceholders : placeholders (.placeholder p :: template) = p :: placeholders template := rfl
      rw [hplaceholders] at hshort hknown ⊢
      obtain ⟨written, hw, hbrings⟩ := write_assign hb target (hshort p List.mem_cons_self)
        (hknown p List.mem_cons_self)
      obtain ⟨hone, ref'', hafter⟩ := tagsBefore_brings hbrings ref'
      obtain ⟨rest, hrest, hlength⟩ := ih (fun q hq => hshort q (List.mem_cons_of_mem p hq))
        (fun q hq => hknown q (List.mem_cons_of_mem p hq)) (.inr ⟨ref, ref'', rfl, rfl⟩) ht
      have hskeleton : skeleton (.placeholder p :: template) = skeleton template := rfl
      refine ⟨written ++ rest, by rw [render, hw, hrest]; rfl, ?_⟩
      rw [hskeleton, tags_append, hafter, List.length_append, hone, hlength, List.countP_cons]
      cases p.shows target
      · simp
      · simp
        omega

end Loud

/-! ### Independence -/

section Independence

variable {hb : Handlebars} {html : List Char} {template : Template}

theorem independent_of_silent (hparse : hb.parse html = some template) (ht : TextPositions (.data none) template)
    (hsilent : ∀ p ∈ placeholders template, p.Silent) : Independent hb html := by
  intro vars vars' output output' hr hr'
  rw [renderTemplate, hparse, Option.bind_some] at hr hr'
  rw [tags_render hsilent (.inl rfl) ht hr, tags_render hsilent (.inl rfl) ht hr']

theorem exists_shows {p : Placeholder} (hsilent : ¬ p.Silent) : ∃ name, p.shows (some name) = true := by
  cases p with
  | eq param0 param1 => exact absurd trivial hsilent
  | ne param0 param1 => exact absurd trivial hsilent
  | truncate name length => exact ⟨name, by simpa [Placeholder.shows, Placeholder.Silent] using hsilent⟩
  | value name => exact ⟨name, by simp [Placeholder.shows]⟩
  | upper name => exact ⟨name, by simp [Placeholder.shows]⟩
  | lower name => exact ⟨name, by simp [Placeholder.shows]⟩
  | formatDate name => exact ⟨name, by simp [Placeholder.shows]⟩

theorem silent_of_independent (hparse : hb.parse html = some template) (ht : TextPositions (.data none) template)
    (hshort : ∀ p ∈ placeholders template, ¬ p.Short) (hind : Independent hb html) : ∀ p ∈ placeholders template, p.Silent := by
  intro p hp
  by_contra hsilent
  obtain ⟨name, hshows⟩ := exists_shows hsilent
  have hknown : ∀ p ∈ placeholders template, ∀ n ∈ p.names, n ∈ (placeholders template).flatMap Placeholder.names :=
    fun p hp n hn => List.mem_flatMap.2 ⟨p, hp, hn⟩
  obtain ⟨empty, hempty, hlength⟩ := length_tags_render hb none hshort hknown (.inl rfl) ht
  obtain ⟨bold, hbold, hlength'⟩ := length_tags_render hb (some name) hshort hknown (.inl rfl) ht
  have heq := hind _ _ empty bold (by rw [renderTemplate, hparse]; exact hempty) (by rw [renderTemplate, hparse]; exact hbold)
  have hnone : (placeholders template).countP (Placeholder.shows none) = 0 := by
    rw [List.countP_eq_zero]
    intro q _
    cases q <;> simp [Placeholder.shows]
  have hpos : 0 < (placeholders template).countP (Placeholder.shows (some name)) := List.countP_pos_iff.2 ⟨p, hp, hshows⟩
  rw [heq] at hlength
  omega

theorem renderTemplate_of_renderEmail {email : EmailTemplateVersion} {context : RenderContext} {e : RenderedEmail}
    {output : List Char} (h : renderEmail hb email context = some e) (hbody : e.bodyHtml = some output) :
    renderTemplate hb context.vars email.bodyHtml = some output := by
  rw [renderEmail] at h
  split at h
  · cases h
  · obtain ⟨subject, -, h⟩ := Option.bind_eq_some_iff.1 h
    obtain ⟨bodyText, -, h⟩ := Option.bind_eq_some_iff.1 h
    split at h
    · cases h
      cases hbody
    · obtain ⟨bodyHtml, hhtml, rfl⟩ := Option.map_eq_some_iff.1 h
      cases hbody
      exact hhtml

theorem renderEmail_tags {email : EmailTemplateVersion} (hparse : hb.parse email.bodyHtml = some template)
    (ht : TextPositions (.data none) template) (hsilent : ∀ p ∈ placeholders template, p.Silent)
    {context context' : RenderContext} {e e' : RenderedEmail} {output output' : List Char}
    (he : renderEmail hb email context = some e) (he' : renderEmail hb email context' = some e')
    (hbody : e.bodyHtml = some output) (hbody' : e'.bodyHtml = some output') :
    tags (.data none) output = tags (.data none) output' :=
  independent_of_silent hparse ht hsilent _ _ _ _ (renderTemplate_of_renderEmail he hbody)
    (renderTemplate_of_renderEmail he' hbody')

/-- Of a template without blocks: the tags are independent of the values where no placeholder writes one, and only there,
leaving aside templates with one that writes one or two bytes. -/
theorem independent_silent (hb : Handlebars) (html : List Char) (template : Template)
    (hparse : hb.parse html = some template) (ht : TextPositions (.data none) template) :
    ((∀ p ∈ placeholders template, p.Silent) → Independent hb html) ∧
      ((∀ p ∈ placeholders template, ¬ p.Short) → Independent hb html → ∀ p ∈ placeholders template, p.Silent) :=
  ⟨independent_of_silent hparse ht, silent_of_independent hparse ht⟩

def oneVariable : List Char := "\x7b\x7bx\x7d\x7d".toList

def comparison : List Char := "<b>\x7b\x7beq x y\x7d\x7d</b>".toList

def comparisonPieces : Template := [.text "<b>".toList, .placeholder (.eq (some (.path "x")) (some (.path "y"))), .text "</b>".toList]

/-- A parser that knows two templates. -/
def small : Handlebars where
  parse template :=
    if template = oneVariable then some [.placeholder (.value "x")]
    else if template = comparison then some comparisonPieces
    else none
  shown _ := []
  strictParams := true
  toUppercase text := text.map Char.toUpper
  toLowercase text := text.map Char.toLower
  uppercase_ascii _ _ := rfl
  lowercase_ascii _ _ := rfl

theorem parse_oneVariable : small.parse oneVariable = some [.placeholder (.value "x")] := by
  simp [small]

theorem parse_comparison : small.parse comparison = some comparisonPieces := by
  have hne : comparison ≠ oneVariable := by decide
  simp [small, hne]

/-- Of the two templates only the one that compares its variables has the same tags for all values. -/
theorem small_independent : Independent small comparison ∧
    (Independent small oneVariable → Placeholder.Silent (.value "x")) := by
  have hcomparison : ∀ p ∈ placeholders comparisonPieces, p.Silent := by
    simp [placeholders, comparisonPieces, Placeholder.Silent]
  have htext : TextPositions (.data none) comparisonPieces := ⟨⟨_, rfl⟩, trivial⟩
  have hvalue : ∀ p ∈ placeholders [.placeholder (.value "x")], ¬ p.Short := by
    simp [placeholders, Placeholder.Short]
  refine ⟨(independent_silent small comparison comparisonPieces parse_comparison htext).1 hcomparison, fun h => ?_⟩
  exact (independent_silent small oneVariable _ parse_oneVariable ⟨⟨none, rfl⟩, trivial⟩).2 hvalue h _ (by simp [placeholders])

/-- A display name with a tag in it brings the tag. -/
theorem name_brings_tag : ¬ Independent small oneVariable := by
  intro h
  have heq := h ((∅ : Variables).insert "x" (.str "Ann")) ((∅ : Variables).insert "x" (.str "<b>Ann</b>"))
    "Ann".toList "<b>Ann</b>".toList
    (by rw [renderTemplate, parse_oneVariable, Option.bind_some, render, Placeholder.write, Assoc.lookup_insert_self]; rfl)
    (by rw [renderTemplate, parse_oneVariable, Option.bind_some, render, Placeholder.write, Assoc.lookup_insert_self]; rfl)
  exact absurd (congrArg List.length heq) (by decide)

end Independence

end TemplateRenderer
end Rustchat
