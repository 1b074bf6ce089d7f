import Rustchat.Lib.WebUrl
import Rustchat.OauthLogin

/-!
# Redirect paths in a browser

`sanitize_redirect_path` refuses a second slash right after the first, but browsers take away tabs and newlines and read a
backslash as a slash. What follows is then an authority.
-/

open WebUrl

namespace Rustchat

namespace Oauth

variable {path : String}

/-- What is asked of a path before it is kept. -/
def Relative (path : String) : Prop :=
  "/".toList <+: path.toList ∧ ¬ "//".toList <+: path.toList ∧ ¬ "..".toList <:+: path.toList ∧
    Char.ofNat 0 ∉ path.toList

theorem relative_iff : ("/".toList.isPrefixOf path.toList ∧ ¬ "//".toList.isPrefixOf path.toList ∧
    ¬ path.toList.tails.any (fun rest => "..".toList.isPrefixOf rest) ∧ ¬ path.toList.contains (Char.ofNat 0)) ↔
      Relative path := by
  have hdots : path.toList.tails.any (fun rest => "..".toList.isPrefixOf rest) ↔ "..".toList <:+: path.toList := by
    rw [List.any_eq_true, List.infix_iff_prefix_suffix]
    simp only [List.mem_tails, List.isPrefixOf_iff_prefix, and_comm]
  rw [Relative, hdots, List.isPrefixOf_iff_prefix, List.isPrefixOf_iff_prefix, List.contains_iff_mem]

theorem sanitizeRedirectPath_of_relative (h : Relative path) : sanitizeRedirectPath (some path) = path :=
  if_pos (relative_iff.2 h)

theorem sanitizeRedirectPath_of_not_relative (h : ¬ Relative path) : sanitizeRedirectPath (some path) = "/" :=
  if_neg fun hcheck => h (relative_iff.1 hcheck)

theorem exists_cons_of_relative (h : Relative path) : ∃ s, path.toList = '/' :: s := by
  obtain ⟨s, hs⟩ := h.1
  exact ⟨s, hs.symm⟩

section Browser

variable {η : Type*} (parseHost : List Char → Option η) (base : Base η)

/-- The path leads to the base's own origin, or is refused. -/
def StaysOn (path : String) : Prop := ∀ origin, rooted parseHost base path.toList = some origin → origin = base.origin

variable {parseHost base}

theorem rooted_slash (s : List Char) : rooted parseHost base ('/' :: s) =
    (authority (clean ('/' :: s)).tail).elim (some base.origin) (named parseHost base) := by
  have hclean := clean_cons (c := '/') (by decide) (by decide) s
  rw [rooted, hclean, List.tail_cons, ← relativeSlash_eq]
  exact if_pos (by decide)

theorem staysOn_slash : StaysOn parseHost base "/" := by
  intro origin h
  cases h
  rfl

/-- Tabs and newlines aside, an authority begins where a slash or a backslash follows the first slash. -/
theorem isSome_authority_iff (s : List Char) : (authority (clean ('/' :: s)).tail).isSome ↔
    (s.dropWhile isTabOrNewline).head?.any isSlash := by
  have hclean := clean_cons (c := '/') (by decide) (by decide) s
  have hsome : ∀ s, (authority s).isSome ↔ s.head?.any isSlash := by
    intro s
    rw [authority]
    split <;> simp_all
  have hblank : ∀ c ∈ (s.rtakeWhile isC0OrSpace).find? (fun c => !isTabOrNewline c), isSlash c = false := by
    intro c hc
    have hc0 : isC0OrSpace c = true := List.mem_rtakeWhile_imp (List.mem_of_find?_eq_some hc)
    by_contra hslash
    rw [isSlash, Bool.not_eq_false, Bool.or_eq_true, decide_eq_true_iff, decide_eq_true_iff] at hslash
    rcases hslash with rfl | rfl
    · exact absurd hc0 (by decide)
    · exact absurd hc0 (by decide)
  rw [hclean, List.tail_cons, hsome, List.head?_filter, ← List.find?_not_eq_head?_dropWhile]
  conv_rhs => rw [← List.rdropWhile_append_rtakeWhile (p := isC0OrSpace) (l := s), List.find?_append]
  cases hfound : (s.rdropWhile isC0OrSpace).find? fun c => !isTabOrNewline c with
  | some c => rfl
  | none =>
    rw [Option.none_or]
    cases hrest : (s.rtakeWhile isC0OrSpace).find? fun c => !isTabOrNewline c with
    | none => rfl
    | some c => simp [hblank c hrest]

/-- A path that is kept leads away exactly where it has an authority that names another origin. -/
theorem staysOn_sanitizeRedirectPath_iff (parseHost : List Char → Option η) (base : Base η) (redirectUri : Option String) :
    StaysOn parseHost base (sanitizeRedirectPath redirectUri) ↔
      ∀ path ∈ redirectUri, Relative path → ∀ a ∈ authority (clean path.toList).tail,
        ∀ origin ∈ named parseHost base a, origin = base.origin := by
  cases redirectUri with
  | none =>
    constructor
    · intro _ path hpath
      cases hpath
    · intro _
      exact staysOn_slash
  | some path =>
    by_cases hrel : Relative path
    · obtain ⟨s, hs⟩ := exists_cons_of_relative hrel
      rw [sanitizeRedirectPath_of_relative hrel, StaysOn, hs, rooted_slash]
      constructor
      · intro h path' hpath _ a ha origin horigin
        obtain rfl := Option.mem_some_iff.1 hpath
        rw [hs] at ha
        refine h origin ?_
        rw [ha]
        exact horigin
      · intro h origin horigin
        have h := h path rfl hrel
        rw [hs] at h
        cases ha : authority (clean ('/' :: s)).tail with
        | none =>
          rw [ha] at horigin
          cases horigin
          rfl
        | some a =>
          rw [ha] at horigin
          exact h a ha origin horigin
    · rw [sanitizeRedirectPath_of_not_relative hrel]
      constructor
      · intro _ path' hpath hrel'
        obtain rfl := Option.mem_some_iff.1 hpath
        exact absurd hrel' hrel
      · intro _
        exact staysOn_slash

end Browser

def chatExample : Base (List Char) := ⟨⟨"chat.example".toList, none⟩, 443⟩

theorem backslash_leaves : sanitizeRedirectPath (some "/\\evil.example") = "/\\evil.example" ∧
    rooted some chatExample "/\\evil.example".toList = some ⟨"evil.example".toList, none⟩ ∧
    ¬ ∀ redirectUri, StaysOn some chatExample (sanitizeRedirectPath redirectUri) := by
  have hkept : sanitizeRedirectPath (some "/\\evil.example") = "/\\evil.example" := rfl
  have hleads : rooted some chatExample "/\\evil.example".toList = some ⟨"evil.example".toList, none⟩ := rfl
  refine ⟨hkept, hleads, fun h => ?_⟩
  have hstays := h (some "/\\evil.example")
  rw [hkept] at hstays
  exact absurd (hstays _ hleads) (by decide)

/-- A tab between two slashes does the same. -/
example : rooted some chatExample (sanitizeRedirectPath (some "/\t/evil.example/login")).toList =
    some ⟨"evil.example".toList, none⟩ := rfl

end Oauth

end Rustchat
