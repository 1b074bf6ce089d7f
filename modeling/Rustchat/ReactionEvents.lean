import Mathlib.Algebra.Order.Ring.Rat
import Mathlib.Data.Nat.Cast.Order.Ring
import Rustchat.Lib.Assoc
import Rustchat.Lib.FirstMatch
import Rustchat.Lib.Utf16
import Rustchat.MmId

/-!
# Reactions in the web client (`stores/messages.ts`, `utils/emoji.ts`)

The reactions of a message are entries with a key, a list of users and a count. The server's list is normalised when the
message is loaded, and the events of the websocket change it afterwards in every copy of the message that is loaded. The
emoji table is an object, so it has a value for `__proto__` too, and no event finds an entry under that key again:
`right_iff` says after which events a copy shows what it should. Of a message its id and its reactions are modelled.
-/

open FirstMatch

namespace Rustchat

namespace Reactions

open Utf16 (Units unit trim)

/-- What indexing an object gives: a text, or a member that every object has. -/
inductive Name
  | text (units : Units)
  | member (key : Units)
deriving DecidableEq

def objectMembers : List Units :=
  ["constructor", "__proto__", "__defineGetter__", "__defineSetter__", "__lookupGetter__", "__lookupSetter__",
    "hasOwnProperty", "isPrototypeOf", "propertyIsEnumerable", "toLocaleString", "toString", "valueOf"].map
    fun name => name.toList.map unit

/-- The one of them that is no function. -/
def objectPrototype : Name := .member ("__proto__".toList.map unit)

/-- `reaction.emoji === key`. The store gives its entries as Vue's proxies, which read a text or a function as it is and an
object as a proxy, and a proxy equals no object. -/
def Name.readsAs (stored key : Name) : Bool := stored = key ∧ key ≠ objectPrototype

/-- `table[key]` as far as it is truthy. -/
def property (table : Units → Option Units) (key : Units) : Option Name :=
  match table key with
  | some [] => none
  | some value => some (.text value)
  | none => if key ∈ objectMembers then some (.member key) else none

/-- The tables of the module, and the lower case of a text. -/
structure EmojiTables where
  emojiMap : Units → Option Units
  preferredEmojiNames : Units → Option Units
  emojiNameByChar : Units → Option Units
  toLowerCase : Units → Units

def colon : UInt16 := unit ':'

/-- `value.replace(/^:|:$/g, '').trim()` -/
def cleanName (value : Units) : Units :=
  let rest := if value.head? = some colon then value.tail else value
  trim (if rest.getLast? = some colon then rest.dropLast else rest)

def getReactionEmojiKey (t : EmojiTables) (value : Units) : Name :=
  let cleanValue := cleanName value
  if cleanValue = [] then .text value
  else (property t.emojiMap (t.toLowerCase cleanValue)).getD (.text cleanValue)

def getPreferredEmojiName (t : EmojiTables) (value : Units) : Name :=
  let cleanValue := cleanName value
  if cleanValue = [] then .text value
  else
    let lowerValue := t.toLowerCase cleanValue
    match property t.emojiMap lowerValue with
    | some (.text char) => (property t.preferredEmojiNames char).getD (.text lowerValue)
    | some (.member _) => .text lowerValue
    | none => (property t.emojiNameByChar cleanValue).getD (.text cleanValue)

structure MessageReaction where
  emoji : Name
  count : ℚ
  users : List String
  apiKey : Option Name
deriving DecidableEq

/-- `left || right` -/
def orName (left right : Option Name) : Option Name :=
  match left with
  | none | some (.text []) => right
  | some name => some name

/-- An item of a list of users: a text, or another value with what its `toString` gives, if it has one. -/
inductive RawUser
  | text (value : String)
  | other (shown : Option String)

/-- An object among the reactions of a post: the emoji if it is a text, the users if they are an array, and the count if
it is a finite number. -/
structure RawReaction where
  emoji : Option Units
  users : Option (List RawUser)
  count : Option ℚ

def RawUser.normalized : RawUser → Option String
  | text value => (normalizeEntityId value).or (some value)
  | other shown => shown

def normalizeReactionUsers (users : Option (List RawUser)) : List String :=
  match users with
  | none => []
  | some users => ((users.filterMap RawUser.normalized).filter (· ≠ "")).eraseDups

def mergeReaction (target incoming : MessageReaction) : MessageReaction :=
  let users := (target.users ++ incoming.users).eraseDups
  { emoji := target.emoji
    apiKey := orName target.apiKey incoming.apiKey
    users
    count := if 0 < users.length then users.length else target.count + incoming.count }

def normalizeReaction (t : EmojiTables) (rawReaction : RawReaction) : Option MessageReaction :=
  rawReaction.emoji.map fun emoji =>
    let users := normalizeReactionUsers rawReaction.users
    { emoji := getReactionEmojiKey t emoji
      apiKey := some (getPreferredEmojiName t emoji)
      users
      count := if 0 < users.length then users.length else (rawReaction.count.filter (0 < ·)).getD 1 }

/-- An entry of the map stands under its own emoji, and one that is set again keeps its place. -/
def setReaction (reactionsByEmoji : List MessageReaction) (reaction : MessageReaction) : List MessageReaction :=
  match reactionsByEmoji.find? (·.emoji = reaction.emoji) with
  | some existing => updateFirst (·.emoji = reaction.emoji) (fun _ => mergeReaction existing reaction) reactionsByEmoji
  | none => reactionsByEmoji ++ [reaction]

/-- `none` in the list is a value that is no object. -/
def normalizeReactions (t : EmojiTables) (rawReactions : List (Option RawReaction)) : List MessageReaction :=
  (rawReactions.filterMap fun raw => raw.bind (normalizeReaction t)).foldl setReaction []

structure Message where
  id : String
  reactions : List MessageReaction

/-- What the two handlers are called with, and which of them. -/
structure ReactionEvent where
  added : Bool
  postId : String
  userId : String
  emojiName : Units

def handleReactionAdded (t : EmojiTables) (data : ReactionEvent) (message : Message) : Message :=
  let reactionKey := getReactionEmojiKey t data.emojiName
  let apiKey := getPreferredEmojiName t data.emojiName
  if message.id ≠ data.postId then message
  else
    match message.reactions.find? (·.emoji.readsAs reactionKey) with
    | some existingReaction =>
      let users := if data.userId ∈ existingReaction.users then existingReaction.users
        else existingReaction.users ++ [data.userId]
      let reaction : MessageReaction := { existingReaction with
        users
        count := if users.length ≠ 0 then users.length else existingReaction.count + 1
        apiKey := orName existingReaction.apiKey (some apiKey) }
      { message with reactions := updateFirst (·.emoji.readsAs reactionKey) (fun _ => reaction) message.reactions }
    | none => { message with reactions := message.reactions ++ [⟨reactionKey, 1, [data.userId], some apiKey⟩] }

def handleReactionRemoved (t : EmojiTables) (data : ReactionEvent) (message : Message) : Message :=
  let reactionKey := getReactionEmojiKey t data.emojiName
  if message.id ≠ data.postId then message
  else
    match message.reactions.find? (·.emoji.readsAs reactionKey) with
    | none => message
    | some existingReaction =>
      let users := existingReaction.users.erase data.userId
      let reaction : MessageReaction := { existingReaction with
        users
        count := if 0 < users.length then users.length else existingReaction.count - 1 }
      if reaction.count ≤ 0 then { message with reactions := message.reactions.eraseP (·.emoji.readsAs reactionKey) }
      else { message with reactions := updateFirst (·.emoji.readsAs reactionKey) (fun _ => reaction) message.reactions }

def ReactionEvent.visit (t : EmojiTables) (data : ReactionEvent) (message : Message) : Message :=
  if data.added then handleReactionAdded t data message else handleReactionRemoved t data message

structure Store where
  messagesByChannel : Assoc String (List Message)
  repliesByThread : Assoc String (List Message)

/-- `visitLoadedMessages` -/
def Store.handle (t : EmojiTables) (s : Store) (data : ReactionEvent) : Store where
  messagesByChannel := Assoc.mapValues (·.map (data.visit t)) s.messagesByChannel
  repliesByThread := Assoc.mapValues (·.map (data.visit t)) s.repliesByThread

def Store.run (t : EmojiTables) (events : List ReactionEvent) (s : Store) : Store := events.foldl (Store.handle t) s

/-- The users of an entry do not repeat, there are some, and they are counted. -/
def MessageReaction.Full (r : MessageReaction) : Prop := r.users.Nodup ∧ r.users ≠ [] ∧ r.count = r.users.length

structure Tidy (l : List MessageReaction) : Prop where
  nodup : (l.map (·.emoji)).Nodup
  full : ∀ r ∈ l, r.Full

def Has (l : List MessageReaction) (key : Name) (user : String) : Prop := ∃ r ∈ l, r.emoji = key ∧ user ∈ r.users

section Lists

variable {l : List MessageReaction} {r r' : MessageReaction} {key k : Name} {user u : String}

theorem not_has_of_find?_none (hf : l.find? (·.emoji = key) = none) : ¬ Has l key u := by
  rintro ⟨b, hb, hkey, -⟩
  have hne := List.find?_eq_none.1 hf b hb
  simp [hkey] at hne

theorem Tidy.append (h : Tidy l) (hf : l.find? (·.emoji = key) = none) (hr : r.Full) (hkey : r.emoji = key) :
    Tidy (l ++ [r]) ∧ ∀ k u, Has (l ++ [r]) k u ↔ (k = key ∧ u ∈ r.users) ∨ Has l k u := by
  refine ⟨⟨?_, ?_⟩, fun k u => ?_⟩
  · rw [List.map_append, List.nodup_append']
    refine ⟨h.nodup, by simp, ?_⟩
    intro k hk hk'
    obtain ⟨b, hb, rfl⟩ := List.mem_map.1 hk
    have hne := List.find?_eq_none.1 hf b hb
    simp only [List.map_cons, List.map_nil, List.mem_singleton, hkey] at hk'
    simp [hk'] at hne
  · intro b hb
    rcases List.mem_append.1 hb with hb | hb
    · exact h.full b hb
    · rw [List.mem_singleton.1 hb]
      exact hr
  · simp only [Has, List.mem_append, List.mem_singleton]
    constructor
    · rintro ⟨b, hb | rfl, hk, hu⟩
      · exact .inr ⟨b, hb, hk, hu⟩
      · exact .inl ⟨hk ▸ hkey, hu⟩
    · rintro (⟨rfl, hu⟩ | ⟨b, hb, hk, hu⟩)
      · exact ⟨r, .inr rfl, hkey, hu⟩
      · exact ⟨b, .inl hb, hk, hu⟩

theorem Tidy.eraseP (h : Tidy l) (hf : l.find? (·.emoji = key) = some r) :
    Tidy (l.eraseP (·.emoji = key)) ∧ ∀ k u, Has (l.eraseP (·.emoji = key)) k u ↔ k ≠ key ∧ Has l k u := by
  obtain ⟨l₁, l₂, hl, he, -⟩ := updateFirst_of_find? (f := id) hf
  have hkey : r.emoji = key := by simpa using List.find?_some hf
  have hnodup := h.nodup
  rw [hl, List.map_append, List.map_cons, List.nodup_middle, ← List.map_append, hkey, List.nodup_cons] at hnodup
  rw [he]
  refine ⟨⟨hnodup.2, fun b hb => h.full b ?_⟩, fun k u => ?_⟩
  · rw [hl]
    simp only [List.mem_append, List.mem_cons] at hb ⊢
    tauto
  · constructor
    · rintro ⟨b, hb, rfl, hu⟩
      refine ⟨fun hk => hnodup.1 (hk ▸ List.mem_map_of_mem hb), b, ?_, rfl, hu⟩
      rw [hl]
      simp only [List.mem_append, List.mem_cons] at hb ⊢
      tauto
    · rintro ⟨hk, b, hb, rfl, hu⟩
      rw [hl, List.mem_append, List.mem_cons] at hb
      rcases hb with hb | rfl | hb
      · exact ⟨b, List.mem_append_left _ hb, rfl, hu⟩
      · exact absurd hkey hk
      · exact ⟨b, List.mem_append_right _ hb, rfl, hu⟩

theorem Tidy.update (h : Tidy l) (hf : l.find? (·.emoji = key) = some r) (hr : r'.Full) (hkey : r'.emoji = key) :
    Tidy (updateFirst (·.emoji = key) (fun _ => r') l) ∧ ∀ k u,
      Has (updateFirst (·.emoji = key) (fun _ => r') l) k u ↔ (k = key ∧ u ∈ r'.users) ∨ (k ≠ key ∧ Has l k u) := by
  obtain ⟨herase, hhas⟩ := h.eraseP hf
  have hmem := fun b => mem_updateFirst_iff (f := fun _ => r') (b := b) hf
  refine ⟨⟨?_, fun b hb => ?_⟩, fun k u => ?_⟩
  · obtain ⟨l₁, l₂, hl, -, hu⟩ := updateFirst_of_find? (f := fun _ => r') hf
    have hold : r.emoji = key := by simpa using List.find?_some hf
    have hnodup := h.nodup
    rw [hl, List.map_append, List.map_cons, hold] at hnodup
    rw [hu, List.map_append, List.map_cons, hkey]
    exact hnodup
  · rcases (hmem b).1 hb with rfl | hb
    · exact hr
    · exact herase.full b hb
  · rw [← hhas]
    simp only [Has, hmem]
    constructor
    · rintro ⟨b, rfl | hb, hk, hu⟩
      · exact .inl ⟨hk ▸ hkey, hu⟩
      · exact .inr ⟨b, hb, hk, hu⟩
    · rintro (⟨rfl, hu⟩ | ⟨b, hb, hk, hu⟩)
      · exact ⟨r', .inl rfl, hkey, hu⟩
      · exact ⟨b, .inr hb, hk, hu⟩

end Lists

theorem nodup_eraseDups {α : Type*} [DecidableEq α] (l : List α) : l.eraseDups.Nodup := by
  induction hn : l.length using Nat.strongRecOn generalizing l with
  | ind n ih =>
    cases l with
    | nil => simp
    | cons a l =>
      rw [List.eraseDups_cons, List.nodup_cons]
      have hlt : (l.filter fun b => !b == a).length < n := by
        have := List.length_filter_le (fun b => !b == a) l
        rw [← hn, List.length_cons]
        omega
      exact ⟨by simp [List.mem_eraseDups], ih _ hlt _ rfl⟩

section Normalize

variable {t : EmojiTables} {l : List MessageReaction} {r : MessageReaction}

/-- Every entry that is taken over lists a user. -/
def Listed (rawReactions : List (Option RawReaction)) : Prop :=
  ∀ raw : RawReaction, some raw ∈ rawReactions → raw.emoji.isSome → normalizeReactionUsers raw.users ≠ []

theorem nodup_normalizeReactionUsers (users : Option (List RawUser)) : (normalizeReactionUsers users).Nodup := by
  cases users with
  | none => exact List.nodup_nil
  | some users => exact nodup_eraseDups _

theorem full_of_normalizeReaction {raw : RawReaction} (h : normalizeReaction t raw = some r)
    (hlisted : raw.emoji.isSome → normalizeReactionUsers raw.users ≠ []) : r.Full := by
  obtain ⟨emoji, hemoji, rfl⟩ := Option.map_eq_some_iff.1 h
  have hne := hlisted (by rw [hemoji]; rfl)
  exact ⟨nodup_normalizeReactionUsers _, hne, if_pos (List.length_pos_of_ne_nil hne)⟩

theorem full_mergeReaction {target incoming : MessageReaction} (h : target.Full) : (mergeReaction target incoming).Full := by
  have hne : (target.users ++ incoming.users).eraseDups ≠ [] := by
    obtain ⟨u, hu⟩ := List.exists_mem_of_ne_nil _ h.2.1
    exact List.ne_nil_of_mem (List.mem_eraseDups.2 (List.mem_append_left incoming.users hu))
  exact ⟨nodup_eraseDups _, hne, if_pos (List.length_pos_of_ne_nil hne)⟩

theorem Tidy.setReaction (h : Tidy l) (hr : r.Full) : Tidy (setReaction l r) := by
  rw [Reactions.setReaction]
  split
  · rename_i existing hf
    have hkey : existing.emoji = r.emoji := by simpa using List.find?_some hf
    exact (h.update hf (full_mergeReaction (h.full existing (List.mem_of_find?_eq_some hf))) hkey).1
  · rename_i hf
    exact (h.append hf hr rfl).1

theorem tidy_normalizeReactions {rawReactions : List (Option RawReaction)} (hlisted : Listed rawReactions) :
    Tidy (normalizeReactions t rawReactions) := by
  have hfull : ∀ r ∈ rawReactions.filterMap fun raw => raw.bind (normalizeReaction t), r.Full := by
    intro r hr
    obtain ⟨raw, hraw, hr⟩ := List.mem_filterMap.1 hr
    obtain ⟨raw, rfl, hr⟩ := Option.bind_eq_some_iff.1 hr
    exact full_of_normalizeReaction hr (hlisted raw hraw)
  rw [normalizeReactions]
  generalize rawReactions.filterMap _ = new at hfull
  have hnil : Tidy [] := ⟨List.nodup_nil, fun r hr => absurd hr List.not_mem_nil⟩
  generalize ([] : List MessageReaction) = l at hnil
  induction new generalizing l with
  | nil => exact hnil
  | cons r new ih =>
    exact ih (fun r' hr' => hfull r' (List.mem_cons_of_mem r hr')) _ (hnil.setReaction (hfull r List.mem_cons_self))

end Normalize

section Events

variable {t : EmojiTables} {m : Message} {e : ReactionEvent} {k : Name} {u : String}

def ReactionEvent.Concerns (t : EmojiTables) (id : String) (key : Name) (user : String) (e : ReactionEvent) : Prop :=
  id = e.postId ∧ getReactionEmojiKey t e.emojiName = key ∧ e.userId = user

instance (t : EmojiTables) (id : String) (key : Name) (user : String) : DecidablePred (ReactionEvent.Concerns t id key user) :=
  fun _ => inferInstanceAs (Decidable (_ ∧ _ ∧ _))

theorem mem_find? {l : List MessageReaction} {r : MessageReaction} {key : Name} (hf : l.find? (·.emoji = key) = some r) :
    r ∈ l ∧ r.emoji = key :=
  ⟨List.mem_of_find?_eq_some hf, by simpa using List.find?_some hf⟩

theorem Tidy.has_iff {l : List MessageReaction} {r : MessageReaction} (h : Tidy l) (hr : r ∈ l) :
    Has l r.emoji u ↔ u ∈ r.users := by
  constructor
  · rintro ⟨b, hb, hkey, hu⟩
    obtain rfl := List.inj_on_of_nodup_map h.nodup hb hr hkey
    exact hu
  · exact fun hu => ⟨r, hr, rfl, hu⟩

theorem exists_withUser {users : List String} (userId : String) (hnodup : users.Nodup) (hne : users ≠ []) :
    ∃ users', (if userId ∈ users then users else users ++ [userId]) = users' ∧ users'.Nodup ∧ users' ≠ [] ∧
      ∀ u, u ∈ users' ↔ u = userId ∨ u ∈ users := by
  refine ⟨_, rfl, ?_⟩
  split
  · rename_i hmem
    exact ⟨hnodup, hne, fun u => ⟨.inr, fun hu => hu.elim (fun hu => hu ▸ hmem) id⟩⟩
  · rename_i hmem
    refine ⟨?_, by simp, fun u => by simp [or_comm]⟩
    rw [List.nodup_append']
    exact ⟨hnodup, by simp, by simpa using hmem⟩

theorem readsAs_eq (hk : k ≠ objectPrototype) :
    (fun r : MessageReaction => r.emoji.readsAs k) = fun r => decide (r.emoji = k) := by
  funext r
  simp [Name.readsAs, hk]

theorem readsAs_objectPrototype : (fun r : MessageReaction => r.emoji.readsAs objectPrototype) = fun _ => false := by
  funext r
  simp [Name.readsAs]

theorem handleReactionAdded_spec (h : Tidy m.reactions) (hid : m.id = e.postId)
    (hkey : getReactionEmojiKey t e.emojiName ≠ objectPrototype) :
    Tidy (handleReactionAdded t e m).reactions ∧ ∀ k u, Has (handleReactionAdded t e m).reactions k u ↔
      (getReactionEmojiKey t e.emojiName = k ∧ e.userId = u) ∨ Has m.reactions k u := by
  rw [handleReactionAdded, if_neg (not_not.2 hid)]
  generalize getReactionEmojiKey t e.emojiName = key at hkey ⊢
  rw [readsAs_eq hkey]
  split
  · rename_i r hf
    obtain ⟨hr, hkey⟩ := mem_find? hf
    obtain ⟨hnodup, hne, -⟩ := h.full r hr
    obtain ⟨users, heq, hnodup', hne', hmem⟩ := exists_withUser e.userId hnodup hne
    simp only [heq]
    have hfull : MessageReaction.Full { r with
        users
        count := if users.length ≠ 0 then users.length else r.count + 1
        apiKey := orName r.apiKey (some (getPreferredEmojiName t e.emojiName)) } :=
      ⟨hnodup', hne', if_pos (List.length_pos_of_ne_nil hne').ne'⟩
    obtain ⟨htidy, hhas⟩ := h.update hf hfull hkey
    refine ⟨htidy, fun k u => (hhas k u).trans ?_⟩
    rw [hmem]
    constructor
    · rintro (⟨rfl, rfl | hu⟩ | ⟨-, hu⟩)
      · exact .inl ⟨rfl, rfl⟩
      · exact .inr ⟨r, hr, hkey, hu⟩
      · exact .inr hu
    · intro hu
      by_cases hk : k = key
      · subst hk
        refine .inl ⟨rfl, ?_⟩
        rw [← hkey, h.has_iff hr] at hu
        exact hu.imp_left fun hu => hu.2.symm
      · exact .inr ⟨hk, hu.resolve_left fun hu => hk hu.1.symm⟩
  · rename_i hf
    obtain ⟨htidy, hhas⟩ := h.append hf (r := ⟨key, 1, [e.userId], some (getPreferredEmojiName t e.emojiName)⟩)
      ⟨List.nodup_singleton _, by simp, by simp⟩ rfl
    refine ⟨htidy, fun k u => (hhas k u).trans ?_⟩
    rw [List.mem_singleton, eq_comm (a := k), eq_comm (a := u)]

theorem handleReactionRemoved_spec (h : Tidy m.reactions) (hid : m.id = e.postId)
    (hkey : getReactionEmojiKey t e.emojiName ≠ objectPrototype) :
    Tidy (handleReactionRemoved t e m).reactions ∧ ∀ k u, Has (handleReactionRemoved t e m).reactions k u ↔
      ¬ (getReactionEmojiKey t e.emojiName = k ∧ e.userId = u) ∧ Has m.reactions k u := by
  rw [handleReactionRemoved, if_neg (not_not.2 hid)]
  generalize getReactionEmojiKey t e.emojiName = key at hkey ⊢
  rw [readsAs_eq hkey]
  split
  · rename_i hf
    refine ⟨h, fun k u => ⟨fun hu => ⟨?_, hu⟩, And.right⟩⟩
    rintro ⟨rfl, -⟩
    exact not_has_of_find?_none hf hu
  · rename_i r hf
    obtain ⟨hr, hkey⟩ := mem_find? hf
    obtain ⟨hnodup, hne, hcount⟩ := h.full r hr
    have hmem : ∀ u, u ∈ r.users.erase e.userId ↔ u ≠ e.userId ∧ u ∈ r.users := fun u => hnodup.mem_erase_iff
    have hentry : ∀ u, Has m.reactions key u ↔ u ∈ r.users := fun u => hkey ▸ h.has_iff hr
    by_cases hlast : r.users.erase e.userId = []
    · -- the entry goes with its only user
      have honly : r.users = [e.userId] := (List.erase_eq_nil_iff.1 hlast).resolve_left hne
      have hzero : (if 0 < (r.users.erase e.userId).length then ((r.users.erase e.userId).length : ℚ) else r.count - 1) ≤ 0 := by
        simp [hcount, honly]
      obtain ⟨htidy, hhas⟩ := h.eraseP hf
      rw [if_pos hzero]
      refine ⟨htidy, fun k u => (hhas k u).trans ⟨fun ⟨hk, hu⟩ => ⟨fun hku => hk hku.1.symm, hu⟩, fun ⟨hku, hu⟩ => ⟨?_, hu⟩⟩⟩
      rintro rfl
      rw [hentry, honly, List.mem_singleton] at hu
      exact hku ⟨rfl, hu.symm⟩
    · have hpos := List.length_pos_of_ne_nil hlast
      have hfull : MessageReaction.Full { r with
          users := r.users.erase e.userId
          count := if 0 < (r.users.erase e.userId).length then ((r.users.erase e.userId).length : ℚ) else r.count - 1 } :=
        ⟨hnodup.erase _, hlast, if_pos hpos⟩
      have hzero : ¬ (if 0 < (r.users.erase e.userId).length then ((r.users.erase e.userId).length : ℚ) else r.count - 1) ≤ 0 := by
        rw [if_pos hpos]
        exact not_le.2 (Nat.cast_pos.2 hpos)
      obtain ⟨htidy, hhas⟩ := h.update hf hfull hkey
      rw [if_neg hzero]
      refine ⟨htidy, fun k u => (hhas k u).trans ?_⟩
      rw [hmem]
      constructor
      · rintro (⟨rfl, hne, hu⟩ | ⟨hk, hu⟩)
        · exact ⟨fun hku => hne hku.2.symm, (hentry u).2 hu⟩
        · exact ⟨fun hku => hk hku.1.symm, hu⟩
      · rintro ⟨hku, hu⟩
        by_cases hk : k = key
        · subst hk
          exact .inl ⟨rfl, fun hue => hku ⟨rfl, hue.symm⟩, (hentry u).1 hu⟩
        · exact .inr ⟨hk, hu⟩

theorem handleReactionAdded_id : (handleReactionAdded t e m).id = m.id := by
  simp only [handleReactionAdded]
  split
  · rfl
  · split <;> rfl

theorem handleReactionRemoved_id : (handleReactionRemoved t e m).id = m.id := by
  simp only [handleReactionRemoved]
  split
  · rfl
  · split
    · rfl
    · exact (apply_ite Message.id _ _ _).trans (ite_self _)

theorem visit_of_ne (hid : m.id ≠ e.postId) : e.visit t m = m := by
  rw [ReactionEvent.visit, handleReactionAdded, handleReactionRemoved, if_pos hid, if_pos hid, ite_self]

theorem visit_id : (e.visit t m).id = m.id := by
  rw [ReactionEvent.visit]
  split
  · exact handleReactionAdded_id
  · exact handleReactionRemoved_id

theorem visit_spec (h : Tidy m.reactions) (hkey : getReactionEmojiKey t e.emojiName ≠ objectPrototype) :
    Tidy (e.visit t m).reactions ∧ ∀ k u,
      Has (e.visit t m).reactions k u ↔ if e.Concerns t m.id k u then e.added = true else Has m.reactions k u := by
  by_cases hid : m.id = e.postId
  · rw [ReactionEvent.visit]
    split
    · rename_i hadded
      obtain ⟨htidy, hhas⟩ := handleReactionAdded_spec (t := t) h hid hkey
      refine ⟨htidy, fun k u => (hhas k u).trans ?_⟩
      simp only [ReactionEvent.Concerns, hid, hadded, true_and]
      split <;> simp [*]
    · rename_i hadded
      obtain ⟨htidy, hhas⟩ := handleReactionRemoved_spec (t := t) h hid hkey
      refine ⟨htidy, fun k u => (hhas k u).trans ?_⟩
      simp only [ReactionEvent.Concerns, hid, hadded, true_and]
      split <;> simp [*]
  · rw [visit_of_ne hid]
    exact ⟨h, fun k u => by simp [ReactionEvent.Concerns, hid]⟩

end Events

namespace Message

/-- The message with the entries that events find. -/
def seen (m : Message) : Message := { m with reactions := m.reactions.filter (·.emoji ≠ objectPrototype) }

def unseen (m : Message) : List MessageReaction := m.reactions.filter (·.emoji = objectPrototype)

end Message

section Unseen

variable {t : EmojiTables} {m : Message} {e : ReactionEvent} {k : Name} {u : String}

theorem has_seen (hk : k ≠ objectPrototype) : Has m.seen.reactions k u ↔ Has m.reactions k u := by
  simp only [Has, Message.seen, List.mem_filter, decide_eq_true_eq]
  constructor
  · rintro ⟨r, ⟨hr, -⟩, hrk, hu⟩
    exact ⟨r, hr, hrk, hu⟩
  · rintro ⟨r, hr, rfl, hu⟩
    exact ⟨r, ⟨hr, hk⟩, rfl, hu⟩

theorem has_unseen : Has m.reactions objectPrototype u ↔ ∃ r ∈ m.unseen, u ∈ r.users := by
  simp only [Has, Message.unseen, List.mem_filter, decide_eq_true_eq]
  constructor
  · rintro ⟨r, hr, hrk, hu⟩
    exact ⟨r, ⟨hr, hrk⟩, hu⟩
  · rintro ⟨r, ⟨hr, hrk⟩, hu⟩
    exact ⟨r, hr, hrk, hu⟩

theorem seen_key {key : Name} (hkey : key ≠ objectPrototype) (r : MessageReaction) (hr : decide (r.emoji = key) = true) :
    decide (r.emoji ≠ objectPrototype) = true := by
  rw [decide_eq_true_eq] at hr ⊢
  exact hr ▸ hkey

theorem unseen_key {key : Name} (hkey : key ≠ objectPrototype) (r : MessageReaction) (hr : decide (r.emoji = key) = true) :
    ¬ decide (r.emoji = objectPrototype) = true := by
  rw [decide_eq_true_eq] at hr ⊢
  exact hr ▸ hkey

theorem find?_seen {key : Name} (hkey : key ≠ objectPrototype) :
    m.seen.reactions.find? (·.emoji = key) = m.reactions.find? (·.emoji = key) := by
  rw [Message.seen, List.find?_filter]
  congr 1
  funext r
  by_cases hr : r.emoji = key
  · simp [hr, hkey]
  · simp [hr]

theorem handleReactionAdded_seen (hid : m.id = e.postId) (hkey : getReactionEmojiKey t e.emojiName ≠ objectPrototype) :
    (handleReactionAdded t e m).seen = handleReactionAdded t e m.seen ∧ (handleReactionAdded t e m).unseen = m.unseen := by
  have hid' : m.seen.id = e.postId := hid
  rw [handleReactionAdded, handleReactionAdded, if_neg (not_not.2 hid), if_neg (not_not.2 hid')]
  generalize getReactionEmojiKey t e.emojiName = key at hkey ⊢
  simp only [readsAs_eq hkey, find?_seen hkey]
  split
  · rename_i r hf
    have hrkey := (mem_find? hf).2
    exact ⟨congrArg (Message.mk m.id) (filter_updateFirst (seen_key hkey) fun _ _ => seen_key hkey _ (by simpa using hrkey)),
      filter_updateFirst_of_not (unseen_key hkey) fun _ _ => unseen_key hkey _ (by simpa using hrkey)⟩
  · simp [Message.seen, Message.unseen, List.filter_append, hkey]

theorem handleReactionRemoved_seen (hid : m.id = e.postId) (hkey : getReactionEmojiKey t e.emojiName ≠ objectPrototype) :
    (handleReactionRemoved t e m).seen = handleReactionRemoved t e m.seen ∧
      (handleReactionRemoved t e m).unseen = m.unseen := by
  have hid' : m.seen.id = e.postId := hid
  rw [handleReactionRemoved, handleReactionRemoved, if_neg (not_not.2 hid), if_neg (not_not.2 hid')]
  generalize getReactionEmojiKey t e.emojiName = key at hkey ⊢
  simp only [readsAs_eq hkey, find?_seen hkey]
  split
  · exact ⟨rfl, rfl⟩
  · rename_i r hf
    have hrkey := (mem_find? hf).2
    generalize (if 0 < (r.users.erase e.userId).length then ((r.users.erase e.userId).length : ℚ) else r.count - 1) = count
    split
    · exact ⟨congrArg (Message.mk m.id) (filter_eraseP (seen_key hkey)), filter_eraseP_of_not (unseen_key hkey)⟩
    · exact ⟨congrArg (Message.mk m.id) (filter_updateFirst (seen_key hkey) fun _ _ => seen_key hkey _ (by simpa using hrkey)),
        filter_updateFirst_of_not (unseen_key hkey) fun _ _ => unseen_key hkey _ (by simpa using hrkey)⟩

theorem visit_seen (hkey : getReactionEmojiKey t e.emojiName ≠ objectPrototype) :
    (e.visit t m).seen = e.visit t m.seen ∧ (e.visit t m).unseen = m.unseen := by
  by_cases hid : m.id = e.postId
  · rw [ReactionEvent.visit, ReactionEvent.visit]
    split
    · exact handleReactionAdded_seen hid hkey
    · exact handleReactionRemoved_seen hid hkey
  · rw [visit_of_ne hid, visit_of_ne (m := m.seen) hid]
    exact ⟨rfl, rfl⟩

def ReactionEvent.Unseen (t : EmojiTables) (id : String) (e : ReactionEvent) : Prop :=
  id = e.postId ∧ getReactionEmojiKey t e.emojiName = objectPrototype

instance (t : EmojiTables) (id : String) : DecidablePred (ReactionEvent.Unseen t id) :=
  fun _ => inferInstanceAs (Decidable (_ ∧ _))

/-- The entry that an addition under that key makes. -/
def ReactionEvent.entry (t : EmojiTables) (e : ReactionEvent) : MessageReaction :=
  ⟨objectPrototype, 1, [e.userId], some (getPreferredEmojiName t e.emojiName)⟩

theorem visit_unseen (hkey : e.Unseen t m.id) :
    (e.visit t m).reactions = m.reactions ++ if e.added then [e.entry t] else [] := by
  rw [ReactionEvent.visit, handleReactionAdded, handleReactionRemoved, if_neg (not_not.2 hkey.1), if_neg (not_not.2 hkey.1),
    hkey.2, readsAs_objectPrototype]
  have hnone : m.reactions.find? (fun _ => false) = none := List.find?_eq_none.2 (by simp)
  simp only [hnone]
  split <;> simp [ReactionEvent.entry]

theorem unseen_visit :
    (e.visit t m).unseen = m.unseen ++ if e.Unseen t m.id ∧ e.added = true then [e.entry t] else [] := by
  by_cases hunseen : e.Unseen t m.id
  · rw [Message.unseen, visit_unseen hunseen, List.filter_append]
    simp only [hunseen, true_and]
    congr 1
    split
    · simp [ReactionEvent.entry]
    · rfl
  · rw [if_neg fun h => hunseen h.1, List.append_nil]
    by_cases hid : m.id = e.postId
    · exact (visit_seen fun hkey => hunseen ⟨hid, hkey⟩).2
    · rw [visit_of_ne hid]

/-- What the handlers keep: the entries that events find are tidy, and the others are full. -/
structure Message.Sound (m : Message) : Prop where
  tidy : Tidy m.seen.reactions
  full : ∀ r ∈ m.unseen, r.Full

theorem Message.Sound.visit (h : m.Sound) : (e.visit t m).Sound ∧ ∀ k ≠ objectPrototype, ∀ u,
    Has (e.visit t m).reactions k u ↔ if e.Concerns t m.id k u then e.added = true else Has m.reactions k u := by
  have hfull : ∀ r ∈ (e.visit t m).unseen, r.Full := by
    intro r hr
    rw [unseen_visit, List.mem_append] at hr
    rcases hr with hr | hr
    · exact h.full r hr
    · split at hr
      · rw [List.mem_singleton.1 hr]
        exact ⟨List.nodup_singleton _, by simp [ReactionEvent.entry], by simp [ReactionEvent.entry]⟩
      · cases hr
  by_cases hkey : getReactionEmojiKey t e.emojiName = objectPrototype
  · have hsame : (e.visit t m).seen.reactions = m.seen.reactions := by
      by_cases hid : m.id = e.postId
      · rw [Message.seen, visit_unseen ⟨hid, hkey⟩, List.filter_append]
        split <;> simp [ReactionEvent.entry, Message.seen]
      · rw [visit_of_ne hid]
    refine ⟨⟨hsame ▸ h.tidy, hfull⟩, fun k hk u => ?_⟩
    rw [if_neg fun hc => hk (hc.2.1.symm.trans hkey), ← has_seen hk, hsame, has_seen hk]
  · obtain ⟨htidy, hhas⟩ := visit_spec (t := t) (e := e) h.tidy hkey
    refine ⟨⟨(visit_seen hkey).1 ▸ htidy, hfull⟩, fun k hk u => ?_⟩
    rw [← has_seen hk, (visit_seen hkey).1, hhas, has_seen hk]
    rfl

theorem nodup_map_iff_filter {α β : Type*} [DecidableEq β] (f : α → β) (b : β) (l : List α) :
    (l.map f).Nodup ↔ ((l.filter (f · ≠ b)).map f).Nodup ∧ (l.filter (f · = b)).length ≤ 1 := by
  induction l with
  | nil => simp
  | cons a l ih =>
    rw [List.map_cons, List.nodup_cons, ih]
    by_cases ha : f a = b
    · have hnone : f a ∉ l.map f ↔ l.filter (f · = b) = [] := by
        simp [List.filter_eq_nil_iff, ha]
      rw [hnone, List.filter_cons_of_neg (by simpa using ha), List.filter_cons_of_pos (by simpa using ha)]
      rw [List.length_cons, ← List.length_eq_zero_iff]
      constructor
      · rintro ⟨hzero, hnodup, -⟩
        exact ⟨hnodup, by omega⟩
      · rintro ⟨hnodup, hlength⟩
        exact ⟨by omega, hnodup, by omega⟩
    · have hmem : f a ∈ l.map f ↔ f a ∈ (l.filter (f · ≠ b)).map f := by
        simp only [List.mem_map, List.mem_filter, decide_eq_true_eq]
        constructor
        · rintro ⟨a', ha', heq⟩
          exact ⟨a', ⟨ha', heq ▸ ha⟩, heq⟩
        · rintro ⟨a', ⟨ha', -⟩, heq⟩
          exact ⟨a', ha', heq⟩
      rw [hmem, List.filter_cons_of_pos (by simpa using ha), List.filter_cons_of_neg (by simpa using ha), List.map_cons,
        List.nodup_cons, and_assoc]

theorem Message.Sound.tidy_iff (h : m.Sound) : Tidy m.reactions ↔ m.unseen.length ≤ 1 := by
  have hnodup := nodup_map_iff_filter (·.emoji) objectPrototype m.reactions
  constructor
  · exact fun ht => (hnodup.1 ht.nodup).2
  · refine fun hlength => ⟨hnodup.2 ⟨h.tidy.nodup, hlength⟩, fun r hr => ?_⟩
    by_cases hkey : r.emoji = objectPrototype
    · exact h.full r (List.mem_filter.2 ⟨hr, by simpa using hkey⟩)
    · exact h.tidy.full r (List.mem_filter.2 ⟨hr, by simpa using hkey⟩)

theorem Tidy.sound (h : Tidy m.reactions) : m.Sound where
  tidy := ⟨((nodup_map_iff_filter (·.emoji) objectPrototype m.reactions).1 h.nodup).1,
    fun r hr => h.full r (List.mem_filter.1 hr).1⟩
  full r hr := h.full r (List.mem_filter.1 hr).1

end Unseen

/-! ### Runs -/

/-- The last event about a message, key and user. -/
def lastEvent (t : EmojiTables) (id : String) (key : Name) (user : String) (events : List ReactionEvent) :
    Option ReactionEvent :=
  (events.filter (ReactionEvent.Concerns t id key user)).getLast?

/-- A user is present after the events if the last one added it, and without an event if it was present before. -/
def Present (t : EmojiTables) (m : Message) (events : List ReactionEvent) (key : Name) (user : String) : Prop :=
  match lastEvent t m.id key user events with
  | some e => e.added = true
  | none => Has m.reactions key user

/-- A copy shows the users that are present, each once, under one entry for a key, and counts them. -/
structure Right (t : EmojiTables) (m : Message) (events : List ReactionEvent) (m' : Message) : Prop where
  tidy : Tidy m'.reactions
  present : ∀ key user, Has m'.reactions key user ↔ Present t m events key user

/-- Once the message has an entry under `__proto__`, no user is added under that key, and none of its users removed. -/
structure Spared (t : EmojiTables) (m : Message) (events : List ReactionEvent) : Prop where
  listed : ∀ e ∈ events, e.Unseen t m.id → ∀ r ∈ m.unseen, e.added = false ∧ e.userId ∉ r.users
  added : events.Pairwise fun a e =>
    a.Unseen t m.id → a.added = true → e.Unseen t m.id → e.added = false ∧ e.userId ≠ a.userId

def Message.after (t : EmojiTables) (m : Message) (events : List ReactionEvent) : Message :=
  events.foldl (fun m e => e.visit t m) m

section Runs

variable {t : EmojiTables} {m : Message} {k : Name} {u : String}

theorem present_concat (events : List ReactionEvent) (e : ReactionEvent) :
    Present t m (events ++ [e]) k u ↔ if e.Concerns t m.id k u then e.added = true else Present t m events k u := by
  rw [Present, lastEvent, List.filter_append]
  split_ifs with he
  · simp [he]
  · simp [he, Present, lastEvent]

theorem after_concat (events : List ReactionEvent) (e : ReactionEvent) :
    m.after t (events ++ [e]) = e.visit t (m.after t events) := by
  rw [Message.after, List.foldl_append]
  rfl

theorem after_id (events : List ReactionEvent) : (m.after t events).id = m.id := by
  induction events using List.reverseRecOn with
  | nil => rfl
  | append_singleton events e ih => rw [after_concat, visit_id, ih]

theorem Message.Sound.after (h : m.Sound) (events : List ReactionEvent) : (m.after t events).Sound ∧
    ∀ k ≠ objectPrototype, ∀ u, Has (m.after t events).reactions k u ↔ Present t m events k u := by
  induction events using List.reverseRecOn with
  | nil => exact ⟨h, fun k _ u => Iff.rfl⟩
  | append_singleton events e ih =>
    obtain ⟨hsound, hhas⟩ := ih
    obtain ⟨hsound', hhas'⟩ := hsound.visit (t := t) (e := e)
    rw [after_concat]
    refine ⟨hsound', fun k hk u => ?_⟩
    rw [hhas' k hk, after_id, present_concat, hhas k hk]

theorem has_of_present {events : List ReactionEvent} (h : Present t m events objectPrototype u) :
    Has (m.after t events).reactions objectPrototype u := by
  induction events using List.reverseRecOn with
  | nil => exact h
  | append_singleton events e ih =>
    rw [present_concat] at h
    rw [after_concat, has_unseen, unseen_visit, after_id]
    split_ifs at h with hc
    · refine ⟨e.entry t, List.mem_append_right _ ?_, List.mem_singleton.2 hc.2.2.symm⟩
      rw [if_pos ⟨⟨hc.1, hc.2.1⟩, h⟩]
      exact List.mem_singleton_self _
    · obtain ⟨r, hr, hu⟩ := has_unseen.1 (ih h)
      exact ⟨r, List.mem_append_left _ hr, hu⟩

theorem unseen_after (events : List ReactionEvent) : (m.after t events).unseen =
    m.unseen ++ (events.filter fun e => e.Unseen t m.id ∧ e.added = true).map (·.entry t) := by
  induction events using List.reverseRecOn with
  | nil => simp [Message.after]
  | append_singleton events e ih =>
    rw [after_concat, unseen_visit, ih, after_id, List.filter_append, List.map_append, List.append_assoc]
    by_cases he : e.Unseen t m.id ∧ e.added = true <;> simp [he]

theorem spared_concat (events : List ReactionEvent) (e : ReactionEvent) : Spared t m (events ++ [e]) ↔
    Spared t m events ∧ (e.Unseen t m.id → ∀ r ∈ (m.after t events).unseen, e.added = false ∧ e.userId ∉ r.users) := by
  rw [unseen_after]
  constructor
  · intro h
    obtain ⟨hpair, -, hlast⟩ := List.pairwise_append.1 h.added
    refine ⟨⟨fun e' he' => h.listed e' (List.mem_append_left _ he'), hpair⟩, fun he r hr => ?_⟩
    rcases List.mem_append.1 hr with hr | hr
    · exact h.listed e (List.mem_append_right _ (List.mem_singleton_self e)) he r hr
    · obtain ⟨a, ha, rfl⟩ := List.mem_map.1 hr
      obtain ⟨ha, hadd⟩ := List.mem_filter.1 ha
      rw [decide_eq_true_eq] at hadd
      exact (hlast a ha e (List.mem_singleton_self e) hadd.1 hadd.2 he).imp_right fun hne hu =>
        hne (List.mem_singleton.1 hu)
  · rintro ⟨h, hlast⟩
    constructor
    · intro e' he' hunseen r hr
      rcases List.mem_append.1 he' with he' | he'
      · exact h.listed e' he' hunseen r hr
      · obtain rfl := List.mem_singleton.1 he'
        exact hlast hunseen r (List.mem_append_left _ hr)
    · refine List.pairwise_append.2 ⟨h.added, List.pairwise_singleton _ _, fun a ha e' he' hunseen hadd he => ?_⟩
      obtain rfl := List.mem_singleton.1 he'
      have hentry : a.entry t ∈ (events.filter fun e => e.Unseen t m.id ∧ e.added = true).map (·.entry t) :=
        List.mem_map_of_mem (List.mem_filter.2 ⟨ha, by simpa using ⟨hunseen, hadd⟩⟩)
      exact (hlast he _ (List.mem_append_right _ hentry)).imp_right fun hnot hu => hnot (List.mem_singleton.2 hu)

/-- What the key asks for: one entry at most, whose users are present. -/
def KeyRight (t : EmojiTables) (m : Message) (events : List ReactionEvent) : Prop :=
  (m.after t events).unseen.length ≤ 1 ∧
    ∀ u, Has (m.after t events).reactions objectPrototype u → Present t m events objectPrototype u

theorem keyRight_concat (events : List ReactionEvent) (e : ReactionEvent) : KeyRight t m (events ++ [e]) ↔
    KeyRight t m events ∧ (e.Unseen t m.id → ∀ r ∈ (m.after t events).unseen, e.added = false ∧ e.userId ∉ r.users) := by
  have hconcerns : ∀ u, e.Concerns t m.id objectPrototype u ↔ e.Unseen t m.id ∧ e.userId = u := fun u => and_assoc.symm
  simp only [KeyRight, present_concat, hconcerns, has_unseen, after_concat, unseen_visit, after_id]
  by_cases hunseen : e.Unseen t m.id
  · cases hadded : e.added with
    | true =>
      -- a second entry, or the first one
      simp only [hunseen, and_self, ↓reduceIte, List.length_append, List.length_singleton, true_and]
      constructor
      · rintro ⟨hlength, -⟩
        have hnil : (m.after t events).unseen = [] := List.length_eq_zero_iff.1 (by omega)
        rw [hnil]
        exact ⟨⟨Nat.zero_le 1, fun u ⟨r, hr, _⟩ => absurd hr List.not_mem_nil⟩, fun _ r hr => absurd hr List.not_mem_nil⟩
      · rintro ⟨-, hnone⟩
        have hnil : (m.after t events).unseen = [] := List.eq_nil_iff_forall_not_mem.2 fun r hr => by
          cases (hnone trivial r hr).1
        rw [hnil]
        refine ⟨le_rfl, fun u ⟨r, hr, hu⟩ => ?_⟩
        rw [List.mem_singleton.1 hr] at hu
        rw [if_pos (List.mem_singleton.1 hu).symm]
        trivial
    | false =>
      simp only [hunseen, Bool.false_eq_true, and_false, ↓reduceIte, List.append_nil, true_and]
      constructor
      · rintro ⟨hlength, hhas⟩
        refine ⟨⟨hlength, fun u hu => ?_⟩, fun _ r hr hu => ?_⟩
        · have hpresent := hhas u hu
          split_ifs at hpresent
          exact hpresent
        · have hpresent := hhas _ ⟨r, hr, hu⟩
          rw [if_pos rfl] at hpresent
          exact hpresent
      · rintro ⟨⟨hlength, hhas⟩, hnot⟩
        refine ⟨hlength, fun u ⟨r, hr, hu⟩ => ?_⟩
        have hne : e.userId ≠ u := fun heq => hnot trivial r hr (heq ▸ hu)
        rw [if_neg hne]
        exact hhas u ⟨r, hr, hu⟩
  · simp [hunseen]

theorem keyRight_iff (hm : m.unseen.length ≤ 1) (events : List ReactionEvent) : KeyRight t m events ↔ Spared t m events := by
  induction events using List.reverseRecOn with
  | nil => exact ⟨fun _ => ⟨nofun, List.Pairwise.nil⟩, fun _ => ⟨hm, fun _ => id⟩⟩
  | append_singleton events e ih => rw [keyRight_concat, spared_concat, ih]

theorem right_after_iff (h : Tidy m.reactions) (events : List ReactionEvent) :
    Right t m events (m.after t events) ↔ Spared t m events := by
  obtain ⟨hsound, hhas⟩ := h.sound.after (t := t) events
  rw [← keyRight_iff (h.sound.tidy_iff.1 h)]
  constructor
  · exact fun hright => ⟨hsound.tidy_iff.1 hright.tidy, fun u => (hright.present objectPrototype u).1⟩
  · rintro ⟨hlength, hpresent⟩
    refine ⟨hsound.tidy_iff.2 hlength, fun key user => ?_⟩
    by_cases hkey : key = objectPrototype
    · subst hkey
      exact ⟨hpresent user, has_of_present⟩
    · exact hhas key hkey user

end Runs

/-! ### The loaded copies -/

/-- Where a copy of a message is loaded: the place in the list of a channel or of a thread. -/
inductive Place
  | channel (channelId : String) (index : ℕ)
  | thread (rootId : String) (index : ℕ)

def Store.copy (s : Store) : Place → Option Message
  | .channel channelId index => (s.messagesByChannel.lookup channelId).bind fun messages => messages[index]?
  | .thread rootId index => (s.repliesByThread.lookup rootId).bind fun replies => replies[index]?

section Copies

variable {t : EmojiTables} {s : Store} {place : Place}

theorem copy_handle {e : ReactionEvent} : (s.handle t e).copy place = (s.copy place).map (e.visit t) := by
  cases place with
  | channel channelId index =>
    simp only [Store.copy, Store.handle, Assoc.lookup_mapValues]
    cases s.messagesByChannel.lookup channelId <;> simp
  | thread rootId index =>
    simp only [Store.copy, Store.handle, Assoc.lookup_mapValues]
    cases s.repliesByThread.lookup rootId <;> simp

theorem copy_run (events : List ReactionEvent) :
    (s.run t events).copy place = (s.copy place).map fun m => m.after t events := by
  induction events generalizing s with
  | nil => simp [Store.run, Message.after]
  | cons e events ih =>
    have hrun : s.run t (e :: events) = (s.handle t e).run t events := rfl
    rw [hrun, ih, copy_handle, Option.map_map]
    rfl

/-- A copy of a message shows after the events what it should exactly if they spare the key `__proto__`. -/
theorem right_iff (t : EmojiTables) (s : Store) (place : Place) (m : Message) (hcopy : s.copy place = some m)
    (rawReactions : List (Option RawReaction)) (hlisted : Listed rawReactions)
    (hm : m.reactions = normalizeReactions t rawReactions) (events : List ReactionEvent) :
    ∃ m', (s.run t events).copy place = some m' ∧ m'.id = m.id ∧ (Right t m events m' ↔ Spared t m events) :=
  ⟨_, by rw [copy_run, hcopy, Option.map_some], after_id events,
    right_after_iff (hm ▸ tidy_normalizeReactions hlisted) events⟩

def thumbs : EmojiTables where
  emojiMap name := if name ∈ ["+1", "thumbsup"].map (·.toList.map unit) then some [0xd83d, 0xdc4d] else none
  preferredEmojiNames _ := some ("+1".toList.map unit)
  emojiNameByChar _ := none
  toLowerCase := id

def reacts (added : Bool) (userId emojiName : String) : ReactionEvent := ⟨added, "p", userId, emojiName.toList.map unit⟩

/-- Twice the same, a removal of nothing, the last user of an emoji removed, and another one added under `__proto__`. -/
theorem right_thumbs :
    let raw : RawReaction := ⟨some ("+1".toList.map unit), some [.text "ann"], none⟩
    let m : Message := ⟨"p", normalizeReactions thumbs [some raw]⟩
    let s : Store := ⟨(∅ : Assoc String (List Message)).insert "c" [m], ∅⟩
    let events := [reacts true "bob" "thumbsup", reacts true "bob" ":+1:", reacts false "carl" "+1",
      reacts false "ann" "thumbsup", reacts true "ann" "__proto__", reacts false "bob" "__proto__"]
    ∃ m', (s.run thumbs events).copy (.channel "c" 0) = some m' ∧ m'.id = "p" ∧ Right thumbs m events m' := by
  intro raw m s events
  obtain ⟨m', hm', hid, hright⟩ := right_iff thumbs s (.channel "c" 0) m (by
    simp only [s, Store.copy, Assoc.lookup_insert_self]
    rfl) [some raw] (by
    intro raw' hraw' _
    rw [List.mem_singleton, Option.some.injEq] at hraw'
    rw [hraw']
    decide) rfl events
  exact ⟨m', hm', hid, hright.2 ⟨by decide, by decide⟩⟩

/-- The same addition twice makes two entries. -/
theorem proto_twice :
    let m : Message := ⟨"p", []⟩
    let s : Store := ⟨(∅ : Assoc String (List Message)).insert "c" [m], ∅⟩
    let events := [reacts true "bob" "__proto__", reacts true "bob" "__proto__"]
    m.reactions = normalizeReactions thumbs [] ∧
      ∃ m', (s.run thumbs events).copy (.channel "c" 0) = some m' ∧ ¬ Right thumbs m events m' := by
  refine ⟨rfl, _, by rw [copy_run, Store.copy, Assoc.lookup_insert_self]; rfl, fun h => ?_⟩
  exact absurd h.tidy.nodup (by decide)

end Copies

end Reactions
end Rustchat
