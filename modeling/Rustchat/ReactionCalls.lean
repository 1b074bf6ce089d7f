import Mathlib.Algebra.Order.Ring.Rat
import Mathlib.Tactic.Linarith
import Rustchat.Lib.FirstMatch

/-!
# Reactions of the message service (`features/messages/services/messageService.ts`, `stores/messageStore.ts`)

A reaction is shown before the server knows it, and a failed request is answered with the opposite operation.
`failed_eq_self_iff` says when the two leave everything as it was. Of a message its id and its reactions are modelled;
the replies of threads, which the store does not search for a reaction, are left out.
-/

open FirstMatch

namespace Rustchat

namespace ReactionCalls

structure Reaction where
  emoji : String
  count : ℚ
  users : List String
  didReact : Option Bool
deriving DecidableEq

structure Message where
  id : String
  reactions : List Reaction
deriving DecidableEq

/-- The lists of the channels in the order of `messagesByChannel`. -/
abbrev Store := List (String × List Message)

def addTo (emoji userId : String) (reactions : List Reaction) : List Reaction :=
  match reactions.find? (·.emoji = emoji) with
  | some reaction =>
    if userId ∈ reaction.users then reactions
    else updateFirst (·.emoji = emoji)
      (fun _ => { reaction with users := reaction.users ++ [userId], count := reaction.count + 1 }) reactions
  | none => reactions ++ [{ emoji, count := 1, users := [userId], didReact := none }]

def removeFrom (emoji userId : String) (reactions : List Reaction) : List Reaction :=
  match reactions.find? (·.emoji = emoji) with
  | some reaction =>
    if userId ∈ reaction.users then
      if reaction.count - 1 ≤ 0 then reactions.eraseP (·.emoji = emoji)
      else updateFirst (·.emoji = emoji)
        (fun _ => { reaction with users := reaction.users.erase userId, count := reaction.count - 1 }) reactions
    else reactions
  | none => reactions

namespace Store

/-- The first message of the id in the first list that has one. -/
def message (s : Store) (messageId : String) : Option Message :=
  (s.find? fun channel => (channel.2.find? (·.id = messageId)).isSome).bind fun channel => channel.2.find? (·.id = messageId)

/-- `f` on the reactions of that message. -/
def edit (s : Store) (messageId : String) (f : List Reaction → List Reaction) : Store :=
  updateFirst (fun channel => (channel.2.find? (·.id = messageId)).isSome)
    (fun channel => (channel.1, updateFirst (·.id = messageId) (fun m => { m with reactions := f m.reactions }) channel.2)) s

def addReaction (s : Store) (messageId emoji userId : String) : Store := s.edit messageId (addTo emoji userId)

def removeReaction (s : Store) (messageId emoji userId : String) : Store := s.edit messageId (removeFrom emoji userId)

def addOptimisticReaction (s : Store) (messageId emoji userId : String) : Store := s.addReaction messageId emoji userId

end Store

/-- `addReaction`, with whether its request succeeds. -/
def addReaction (s : Store) (messageId emoji userId : String) (succeeds : Bool) : Store :=
  let s := s.addOptimisticReaction messageId emoji userId
  if succeeds then s else s.removeReaction messageId emoji userId

def removeReaction (s : Store) (messageId emoji userId : String) (succeeds : Bool) : Store :=
  let s := s.removeReaction messageId emoji userId
  if succeeds then s else s.addOptimisticReaction messageId emoji userId

inductive Call
  | add
  | remove

def Call.run : Call → Store → String → String → String → Bool → Store
  | add => addReaction
  | remove => removeReaction

/-! ### When the opposite operation is the inverse -/

/-- The call changes the reactions of a message, and the opposite one changes them back. -/
def Call.Undone (emoji userId : String) (reactions : List Reaction) : Call → Prop
  | add => ∀ r, reactions.find? (·.emoji = emoji) = some r → userId ∉ r.users ∧ 0 < r.count
  | remove =>
    (∃ r, reactions.find? (·.emoji = emoji) = some r ∧ (∃ others, r.users = others ++ [userId] ∧ userId ∉ others) ∧
        1 < r.count) ∨
      ∃ older, reactions = older ++ [{ emoji, count := 1, users := [userId], didReact := none }] ∧
        older.find? (·.emoji = emoji) = none

section Lists

variable {emoji user : String} {l l₁ l₂ : List Reaction} {r : Reaction}

theorem find?_first (h : l₁.find? (·.emoji = emoji) = none) (hr : r.emoji = emoji) :
    (l₁ ++ r :: l₂).find? (·.emoji = emoji) = some r := by
  rw [List.find?_append, h, Option.none_or, List.find?_cons_of_pos (by simpa using hr)]

theorem exists_first (h : l.find? (·.emoji = emoji) = some r) :
    r.emoji = emoji ∧ ∃ l₁ l₂, l = l₁ ++ r :: l₂ ∧ l₁.find? (·.emoji = emoji) = none := by
  obtain ⟨hr, l₁, l₂, hl, hne⟩ := List.find?_eq_some_iff_append.1 h
  exact ⟨by simpa using hr, l₁, l₂, hl, List.find?_eq_none.2 (by simpa using hne)⟩

theorem eraseP_first (h : l₁.find? (·.emoji = emoji) = none) (hr : r.emoji = emoji) :
    (l₁ ++ r :: l₂).eraseP (·.emoji = emoji) = l₁ ++ l₂ := by
  rw [List.eraseP_append_right _ (by simpa using List.find?_eq_none.1 h), List.eraseP_cons_of_pos (by simpa using hr)]

theorem addTo_none (h : l.find? (·.emoji = emoji) = none) :
    addTo emoji user l = l ++ [{ emoji, count := 1, users := [user], didReact := none }] := by
  rw [addTo, h]

theorem removeFrom_none (h : l.find? (·.emoji = emoji) = none) : removeFrom emoji user l = l := by
  rw [removeFrom, h]

theorem addTo_first (h : l₁.find? (·.emoji = emoji) = none) (hr : r.emoji = emoji) :
    addTo emoji user (l₁ ++ r :: l₂) = l₁ ++ (if user ∈ r.users then r
      else { r with users := r.users ++ [user], count := r.count + 1 }) :: l₂ := by
  simp only [addTo, find?_first h hr]
  split
  · rfl
  · exact updateFirst_append_cons h (by simpa using hr)

theorem removeFrom_first (h : l₁.find? (·.emoji = emoji) = none) (hr : r.emoji = emoji) (hu : user ∈ r.users) :
    removeFrom emoji user (l₁ ++ r :: l₂) = if r.count - 1 ≤ 0 then l₁ ++ l₂
      else l₁ ++ { r with users := r.users.erase user, count := r.count - 1 } :: l₂ := by
  simp only [removeFrom, find?_first h hr, if_pos hu]
  split
  · exact eraseP_first h hr
  · exact updateFirst_append_cons h (by simpa using hr)

theorem removeFrom_first_of_notMem (h : l₁.find? (·.emoji = emoji) = none) (hr : r.emoji = emoji) (hu : user ∉ r.users) :
    removeFrom emoji user (l₁ ++ r :: l₂) = l₁ ++ r :: l₂ := by
  simp only [removeFrom, find?_first h hr, if_neg hu]

theorem removeFrom_addTo_iff : removeFrom emoji user (addTo emoji user l) = l ↔ Call.add.Undone emoji user l := by
  rw [Call.Undone]
  cases hf : l.find? (·.emoji = emoji) with
  | none =>
    refine iff_of_true ?_ (by simp)
    rw [addTo_none hf, removeFrom_first hf rfl (List.mem_singleton.2 rfl), if_pos (by simp), List.append_nil]
  | some r =>
    obtain ⟨hr, l₁, l₂, rfl, hne⟩ := exists_first hf
    simp only [Option.some.injEq, forall_eq']
    rw [addTo_first hne hr]
    split_ifs with hu
    · -- the user had reacted: nothing is added, but something is removed
      refine iff_of_false ?_ fun h => h.1 hu
      rw [removeFrom_first hne hr hu]
      split_ifs with hcount
      · simp
      · intro heq
        have hsame := (List.cons.inj (List.append_cancel_left heq)).1
        have hcount' := congrArg Reaction.count hsame
        simp at hcount'
    · rw [removeFrom_first hne (by simpa using hr) (by simp)]
      simp only [add_sub_cancel_right, List.erase_append_right _ hu, List.erase_cons_head, List.append_nil]
      split_ifs with hcount
      · refine iff_of_false (by simp) fun h => absurd h.2 (not_lt.2 hcount)
      · exact iff_of_true rfl ⟨hu, not_le.1 hcount⟩

theorem first_last_iff {x : Reaction} (h : l₁.find? (·.emoji = emoji) = none) (hr : r.emoji = emoji) (hx : x.emoji = emoji) :
    (∃ older, l₁ ++ r :: l₂ = older ++ [x] ∧ older.find? (·.emoji = emoji) = none) ↔ l₂ = [] ∧ r = x := by
  constructor
  · rintro ⟨older, heq, hnone⟩
    rcases List.eq_nil_or_concat l₂ with rfl | ⟨l, y, rfl⟩
    · exact ⟨rfl, List.singleton_inj.1 (List.append_inj' heq rfl).2⟩
    · rw [List.concat_eq_append, ← List.cons_append, ← List.append_assoc] at heq
      rw [← (List.append_inj' heq rfl).1, find?_first h hr] at hnone
      cases hnone
  · rintro ⟨rfl, rfl⟩
    exact ⟨l₁, rfl, h⟩

theorem erase_append_iff {users : List String} :
    (user ∉ users.erase user ∧ users.erase user ++ [user] = users) ↔ ∃ others, users = others ++ [user] ∧ user ∉ others := by
  constructor
  · exact fun ⟨hu, heq⟩ => ⟨users.erase user, heq.symm, hu⟩
  · rintro ⟨others, rfl, hu⟩
    simpa [List.erase_append_right _ hu] using hu

/-- Where an entry has gone, what is added is a new one at the end, unless there is another for the emoji. -/
theorem addTo_without_iff (hne : l₁.find? (·.emoji = emoji) = none) (hr : r.emoji = emoji) :
    addTo emoji user (l₁ ++ l₂) = l₁ ++ r :: l₂ ↔
      l₂ = [] ∧ r = { emoji, count := 1, users := [user], didReact := none } := by
  cases hf : l₂.find? (·.emoji = emoji) with
  | none =>
    rw [addTo_none (by rw [List.find?_append, hne, hf]; rfl), List.append_assoc, List.append_cancel_left_eq]
    cases l₂ with
    | nil => simp [eq_comm]
    | cons b l₂ =>
      refine iff_of_false (fun heq => ?_) (by simp)
      have hb := List.find?_eq_none.1 hf b List.mem_cons_self
      rw [(List.cons.inj heq).1, hr] at hb
      simp at hb
  | some r₂ =>
    obtain ⟨hr₂, m₁, m₂, rfl, hm₁⟩ := exists_first hf
    refine iff_of_false (fun heq => ?_) (by simp)
    rw [← List.append_assoc, addTo_first (by rw [List.find?_append, hne, hm₁]; rfl) hr₂] at heq
    have hlength := congrArg List.length heq
    simp only [List.length_append, List.length_cons] at hlength
    omega

theorem addTo_removeFrom_iff : addTo emoji user (removeFrom emoji user l) = l ↔ Call.remove.Undone emoji user l := by
  rw [Call.Undone]
  cases hf : l.find? (·.emoji = emoji) with
  | none =>
    rw [removeFrom_none hf, addTo_none hf]
    refine iff_of_false (by simp) ?_
    rintro (⟨r, hr, -⟩ | ⟨older, rfl, hnone⟩)
    · cases hr
    · rw [find?_first hnone rfl] at hf
      cases hf
  | some r =>
    obtain ⟨hr, l₁, l₂, rfl, hne⟩ := exists_first hf
    rw [first_last_iff hne hr rfl]
    simp only [Option.some.injEq, exists_eq_left', ← erase_append_iff]
    by_cases hu : user ∈ r.users
    · rw [removeFrom_first hne hr hu]
      split_ifs with hcount
      · have hone : ¬ 1 < r.count := by linarith
        simp only [hone, and_false, false_or]
        rw [addTo_without_iff hne hr]
      · have hx : r ≠ { emoji, count := 1, users := [user], didReact := none } := by
          rintro rfl
          simp at hcount
        have hone : 1 < r.count := by linarith
        simp only [hx, and_false, or_false, hone, and_true]
        rw [addTo_first hne (by simpa using hr), List.append_cancel_left_eq, List.cons.injEq, and_iff_left rfl]
        split_ifs with hagain
        · refine iff_of_false (fun heq => ?_) fun h => h.1 hagain
          have hcount' := congrArg Reaction.count heq
          simp at hcount'
        · constructor
          · exact fun heq => ⟨hagain, congrArg Reaction.users heq⟩
          · rintro ⟨-, heq⟩
            simp only [heq, sub_add_cancel]
    · rw [removeFrom_first_of_notMem hne hr hu, addTo_first hne hr, if_neg hu]
      refine iff_of_false (fun heq => ?_) ?_
      · have hcount := congrArg Reaction.count (List.cons.inj (List.append_cancel_left heq)).1
        simp at hcount
      · rintro (⟨⟨-, heq⟩, -⟩ | ⟨-, rfl⟩)
        · exact hu (heq ▸ List.mem_append_right _ (List.mem_singleton_self user))
        · exact hu (List.mem_singleton_self user)

end Lists

/-! ### Failed calls -/

section Store

variable {s : Store} {messageId : String} {f g : List Reaction → List Reaction}

theorem edit_edit : (s.edit messageId f).edit messageId g = s.edit messageId fun l => g (f l) := by
  have htwice : ∀ l : List Message, updateFirst (·.id = messageId) (fun m => { m with reactions := g m.reactions })
      (updateFirst (·.id = messageId) (fun m => { m with reactions := f m.reactions }) l) =
        updateFirst (·.id = messageId) (fun m => { m with reactions := g (f m.reactions) }) l :=
    fun l => updateFirst_updateFirst fun m => rfl
  rw [Store.edit, Store.edit, updateFirst_updateFirst]
  · simp only [htwice]
    rfl
  · intro channel
    have hfind := find?_updateFirst (p := fun m : Message => m.id = messageId)
      (f := fun m => { m with reactions := f m.reactions }) (l := channel.2) fun m => rfl
    rw [hfind, Option.isSome_map]

theorem edit_eq_self_iff : s.edit messageId f = s ↔ ∀ m, s.message messageId = some m → f m.reactions = m.reactions := by
  rw [Store.edit, updateFirst_eq_self_iff]
  constructor
  · intro h m hm
    obtain ⟨channel, hc, hm⟩ := Option.bind_eq_some_iff.1 hm
    have hsame := congrArg Prod.snd (h channel hc)
    exact congrArg Message.reactions (updateFirst_eq_self_iff.1 hsame m hm)
  · intro h channel hc
    refine Prod.ext rfl (updateFirst_eq_self_iff.2 fun m hm => ?_)
    have hsame := h m (by rw [Store.message, hc]; exact hm)
    rw [hsame]

end Store

/-- A failed call leaves everything as it was exactly if it changed the message and the opposite operation is the inverse. -/
theorem failed_eq_self_iff (call : Call) (s : Store) (messageId emoji userId : String) :
    call.run s messageId emoji userId false = s ↔
      ∀ m, s.message messageId = some m → call.Undone emoji userId m.reactions := by
  cases call with
  | add =>
    have hrun : Call.add.run s messageId emoji userId false =
        (s.edit messageId (addTo emoji userId)).edit messageId (removeFrom emoji userId) := rfl
    rw [hrun, edit_edit, edit_eq_self_iff]
    simp only [removeFrom_addTo_iff]
  | remove =>
    have hrun : Call.remove.run s messageId emoji userId false =
        (s.edit messageId (removeFrom emoji userId)).edit messageId (addTo emoji userId) := rfl
    rw [hrun, edit_edit, edit_eq_self_iff]
    simp only [addTo_removeFrom_iff]

/-- Adding a reaction that the user had takes it away when the request fails. -/
theorem failed_add_removes :
    let s : Store := [("c", [⟨"p", [⟨"+1", 1, ["ann"], none⟩]⟩])]
    Call.add.run s "p" "+1" "ann" false ≠ s ∧ Call.add.run s "p" "+1" "ann" false = [("c", [⟨"p", []⟩])] := by
  decide +kernel

end ReactionCalls
end Rustchat
