import Mathlib.Data.Sym.Sym2
import Rustchat.DirectRuns

/-!
# Names of direct channels (`models/channel.rs`)

The name of a direct channel holds the ids of its two users, the smaller one first, in a canonical and in a legacy
form. One parser reads both: the underscores of a name are those of its form, for the text of an id has none.
-/

namespace Rustchat

open DirectRuns (names_of_perm sortUserIds_of_perm)

theorem splitOnce_separator {s : Char} {separator rest : List Char} :
    splitOnce (s :: separator) (s :: separator ++ rest) = some ([], rest) := by
  have hstart : (s :: separator).isPrefixOf (s :: (separator ++ rest)) = true :=
    List.isPrefixOf_iff_prefix.2 (List.prefix_append ..)
  rw [List.cons_append, splitOnce, if_pos hstart]
  simp

theorem splitOnce_append {s : Char} {separator text : List Char} (h : s ∉ text) (rest : List Char) :
    splitOnce (s :: separator) (text ++ rest) =
      (splitOnce (s :: separator) rest).map fun parts => (text ++ parts.1, parts.2) := by
  induction text with
  | nil => simp
  | cons c text ih =>
    obtain ⟨hc, htext⟩ := not_or.1 (List.mem_cons.not.1 h)
    have hstart : ¬ (s :: separator).isPrefixOf (c :: (text ++ rest)) = true := fun hp =>
      hc (List.cons_prefix_cons.1 (List.isPrefixOf_iff_prefix.1 hp)).1
    rw [List.cons_append, splitOnce, if_neg hstart, ih htext, Option.map_map]
    rfl

theorem splitOnce_underscore {rest : List Char} (h : '_' ∉ rest.head?) :
    splitOnce ['_', '_'] ('_' :: rest) = (splitOnce ['_', '_'] rest).map fun parts => ('_' :: parts.1, parts.2) := by
  have hstart : ¬ ['_', '_'].isPrefixOf ('_' :: rest) = true := fun hp => by
    obtain ⟨-, hrest⟩ := List.cons_prefix_cons.1 (List.isPrefixOf_iff_prefix.1 hp)
    obtain ⟨rest, rfl⟩ := hrest
    exact h rfl
  rw [splitOnce, if_neg hstart]

theorem Uuid.not_mem_hyphenated (u : Uuid) : '_' ∉ u.hyphenated.toList := by
  rw [Uuid.toList_hyphenated]
  intro h
  rcases mem_hyphenate h with h | h
  · exact absurd h (by decide)
  · exact forall_mem_hexText (p := ('_' ≠ ·)) (by decide) (fun _ => Uuid.lt_of_mem_asBytes) _ h rfl

theorem Uuid.not_mem_head?_hyphenated (u : Uuid) (rest : List Char) : '_' ∉ (u.hyphenated.toList ++ rest).head? := by
  have hne : u.hyphenated.toList ≠ [] := fun h => by
    have hlength := u.length_hyphenated
    rw [h] at hlength
    cases hlength
  rw [List.head?_append_of_ne_nil _ hne]
  exact fun h => u.not_mem_hyphenated (List.mem_of_mem_head? h)

theorem sortUserIds_perm (a b : Uuid) : [(sortUserIds a b).1, (sortUserIds a b).2].Perm [a, b] := by
  unfold sortUserIds
  split
  · exact .refl _
  · exact .swap a b []

/-! ### The two forms -/

variable {parseUuid : String → Option Uuid}

theorem parse_canonical (h : ∀ u, parseUuid u.hyphenated = some u) (a b : Uuid) :
    parseDirectChannelName parseUuid (canonicalDirectChannelName a b) = some (sortUserIds a b) := by
  have hname : (canonicalDirectChannelName a b).toList =
      (sortUserIds a b).1.hyphenated.toList ++ (['_', '_'] ++ (sortUserIds a b).2.hyphenated.toList) := by
    simp [canonicalDirectChannelName]
  have hsplit : splitOnce ['_', '_'] (canonicalDirectChannelName a b).toList =
      some ((sortUserIds a b).1.hyphenated.toList, (sortUserIds a b).2.hyphenated.toList) := by
    rw [hname, splitOnce_append (Uuid.not_mem_hyphenated _), splitOnce_separator, Option.map_some, List.append_nil]
  unfold parseDirectChannelName
  simp only [hsplit, String.ofList_toList, h, Option.bind_some, Option.map_some]
  rw [sortUserIds_of_perm (sortUserIds_perm a b)]

theorem splitOnce_legacy (a b : Uuid) : splitOnce ['_', '_'] (legacyDirectChannelName a b).toList = none := by
  have hname : (legacyDirectChannelName a b).toList = ['d', 'm'] ++ '_' :: ((sortUserIds a b).1.hyphenated.toList ++
      '_' :: ((sortUserIds a b).2.hyphenated.toList ++ [])) := by
    simp [legacyDirectChannelName]
  rw [hname, splitOnce_append (by decide), splitOnce_underscore (Uuid.not_mem_head?_hyphenated _ _),
    splitOnce_append (Uuid.not_mem_hyphenated _), splitOnce_underscore (Uuid.not_mem_head?_hyphenated _ _),
    splitOnce_append (Uuid.not_mem_hyphenated _)]
  rfl

theorem parse_legacy (h : ∀ u, parseUuid u.hyphenated = some u) (a b : Uuid) :
    parseDirectChannelName parseUuid (legacyDirectChannelName a b) = some (sortUserIds a b) := by
  have hname : (legacyDirectChannelName a b).toList =
      ['d', 'm', '_'] ++ ((sortUserIds a b).1.hyphenated.toList ++ (['_'] ++ (sortUserIds a b).2.hyphenated.toList)) := by
    simp [legacyDirectChannelName]
  have hdrop3 (rest : List Char) : (['d', 'm', '_'] ++ rest).drop 3 = rest := rfl
  have hsplit : splitOnce ['_'] ((legacyDirectChannelName a b).toList.drop 3) =
      some ((sortUserIds a b).1.hyphenated.toList, (sortUserIds a b).2.hyphenated.toList) := by
    have hdrop : (legacyDirectChannelName a b).toList.drop 3 =
        (sortUserIds a b).1.hyphenated.toList ++ (['_'] ++ (sortUserIds a b).2.hyphenated.toList) := by
      rw [hname]
      exact hdrop3 _
    rw [hdrop, splitOnce_append (Uuid.not_mem_hyphenated _), splitOnce_separator, Option.map_some, List.append_nil]
  have hstart : ['d', 'm', '_'].isPrefixOf (legacyDirectChannelName a b).toList = true := by
    rw [hname]
    exact List.isPrefixOf_iff_prefix.2 (List.prefix_append ..)
  unfold parseDirectChannelName
  simp only [splitOnce_legacy, hstart, if_true, hsplit, String.ofList_toList, h, Option.bind_some, Option.map_some]
  rw [sortUserIds_of_perm (sortUserIds_perm a b)]

/-! ### The law -/

theorem mk_sortUserIds (a b : Uuid) : s((sortUserIds a b).1, (sortUserIds a b).2) = s(a, b) := by
  unfold sortUserIds
  split
  · rfl
  · exact Sym2.eq_swap

theorem canonical_eq_iff {a b c d : Uuid} :
    canonicalDirectChannelName a b = canonicalDirectChannelName c d ↔ s(a, b) = s(c, d) := by
  constructor
  · intro h
    have hsort := parse_canonical Uuid.ofHyphenated_hyphenated a b
    rw [h, parse_canonical Uuid.ofHyphenated_hyphenated c d] at hsort
    rw [← mk_sortUserIds a b, ← mk_sortUserIds c d, Option.some.inj hsort]
  · intro h
    rcases Sym2.eq_iff.1 h with ⟨rfl, rfl⟩ | ⟨rfl, rfl⟩
    · rfl
    · exact (names_of_perm (.swap ..)).1

/-- Both forms of a name are read as the pair, and canonical names tell the unordered pairs apart. -/
theorem directNames_law (parseUuid : String → Option Uuid) (h : ∀ u, parseUuid u.hyphenated = some u)
    (a b c d : Uuid) :
    (∃ pair, parseDirectChannelName parseUuid (canonicalDirectChannelName a b) = some pair ∧
      s(pair.1, pair.2) = s(a, b)) ∧
    (∃ pair, parseDirectChannelName parseUuid (legacyDirectChannelName a b) = some pair ∧
      s(pair.1, pair.2) = s(a, b)) ∧
    (canonicalDirectChannelName a b = canonicalDirectChannelName c d ↔ s(a, b) = s(c, d)) :=
  ⟨⟨_, parse_canonical h a b, mk_sortUserIds a b⟩, ⟨_, parse_legacy h a b, mk_sortUserIds a b⟩, canonical_eq_iff⟩

/-- Users 7 and 5 have the names of users 5 and 7. -/
theorem five_seven_named :
    (∃ pair, parseDirectChannelName Uuid.ofHyphenated (canonicalDirectChannelName 7 5) = some pair ∧
      s(pair.1, pair.2) = s(7, 5)) ∧
    (∃ pair, parseDirectChannelName Uuid.ofHyphenated (legacyDirectChannelName 7 5) = some pair ∧
      s(pair.1, pair.2) = s(7, 5)) ∧
    (canonicalDirectChannelName 7 5 = canonicalDirectChannelName 5 7 ↔ s((7 : Uuid), 5) = s(5, 7)) :=
  directNames_law Uuid.ofHyphenated Uuid.ofHyphenated_hyphenated 7 5 5 7

end Rustchat
