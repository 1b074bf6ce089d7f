import Mathlib.Data.List.Nodup

/-!
# The first match of a list

`updateFirst p f l` changes the first entry of `l` that meets `p` and leaves the others, and `l`
itself where no entry meets `p`. What it does to a list is said by counting: `countP_updateFirst`.
`upsertFirst p a l` puts `a` in the place of the first match or, where there is none, at the end. It keeps
the values of `f` apart exactly if the entry with the value of `a`, if there is one, is the one that gives
way: `nodup_map_upsertFirst`.
-/

namespace FirstMatch

variable {α : Type*} {p q : α → Bool} {f : α → α} {l : List α} {a b : α}

def updateFirst (p : α → Bool) (f : α → α) (l : List α) : List α :=
  l.replaceF fun a => if p a then some (f a) else none

theorem updateFirst_of_none (h : l.find? p = none) : updateFirst p f l = l := by
  rw [updateFirst, List.replaceF_of_forall_none]
  intro a ha
  rw [if_neg (List.find?_eq_none.1 h a ha)]

theorem updateFirst_of_find? (h : l.find? p = some a) :
    ∃ l₁ l₂, l = l₁ ++ a :: l₂ ∧ l.eraseP p = l₁ ++ l₂ ∧ updateFirst p f l = l₁ ++ f a :: l₂ := by
  induction l with
  | nil => simp at h
  | cons b l ih =>
    by_cases hb : p b = true
    · obtain rfl : b = a := by simpa [List.find?_cons_of_pos hb] using h
      exact ⟨[], l, rfl, List.eraseP_cons_of_pos hb, by simp [updateFirst, hb]⟩
    · rw [List.find?_cons_of_neg hb] at h
      obtain ⟨l₁, l₂, hl, he, hu⟩ := ih h
      refine ⟨b :: l₁, l₂, by rw [hl]; rfl, by rw [List.eraseP_cons_of_neg hb, he]; rfl, ?_⟩
      rw [List.cons_append, ← hu]
      simp [updateFirst, hb]

theorem updateFirst_append_cons {l₁ l₂ : List α} (h : l₁.find? p = none) (ha : p a) :
    updateFirst p f (l₁ ++ a :: l₂) = l₁ ++ f a :: l₂ := by
  induction l₁ with
  | nil => simp [updateFirst, ha]
  | cons b l₁ ih =>
    have hb : ¬ p b := List.find?_eq_none.1 h b List.mem_cons_self
    rw [List.find?_cons_of_neg hb] at h
    rw [List.cons_append, List.cons_append, ← ih h]
    simp [updateFirst, hb]

theorem updateFirst_eq_self_iff : updateFirst p f l = l ↔ ∀ a, l.find? p = some a → f a = a := by
  cases h : l.find? p with
  | none => simp [updateFirst_of_none h]
  | some a =>
    obtain ⟨l₁, l₂, hl, -, hu⟩ := updateFirst_of_find? (f := f) h
    rw [hu, hl]
    simp

theorem find?_updateFirst (hf : ∀ a, p (f a) = p a) : (updateFirst p f l).find? p = (l.find? p).map f := by
  cases h : l.find? p with
  | none => rw [updateFirst_of_none h, h, Option.map_none]
  | some a =>
    obtain ⟨ha, l₁, l₂, rfl, hne⟩ := List.find?_eq_some_iff_append.1 h
    have hnone : l₁.find? p = none := List.find?_eq_none.2 (by simpa using hne)
    rw [updateFirst_append_cons hnone ha, List.find?_append, hnone, Option.none_or,
      List.find?_cons_of_pos ((hf a).trans ha), Option.map_some]

theorem updateFirst_updateFirst {g : α → α} (hf : ∀ a, p (f a) = p a) :
    updateFirst p g (updateFirst p f l) = updateFirst p (fun a => g (f a)) l := by
  cases h : l.find? p with
  | none => rw [updateFirst_of_none h, updateFirst_of_none h, updateFirst_of_none h]
  | some a =>
    obtain ⟨ha, l₁, l₂, rfl, hne⟩ := List.find?_eq_some_iff_append.1 h
    have hnone : l₁.find? p = none := List.find?_eq_none.2 (by simpa using hne)
    rw [updateFirst_append_cons hnone ha, updateFirst_append_cons hnone ((hf a).trans ha),
      updateFirst_append_cons hnone ha]

theorem countP_updateFirst (h : l.find? p = some a) (q : α → Bool) :
    (updateFirst p f l).countP q + (if q a then 1 else 0) = l.countP q + if q (f a) then 1 else 0 := by
  obtain ⟨l₁, l₂, hl, -, hu⟩ := updateFirst_of_find? (f := f) h
  rw [hu, hl]
  simp only [List.countP_append, List.countP_cons]
  omega

theorem mem_updateFirst_iff (h : l.find? p = some a) : b ∈ updateFirst p f l ↔ b = f a ∨ b ∈ l.eraseP p := by
  obtain ⟨l₁, l₂, -, he, hu⟩ := updateFirst_of_find? (f := f) h
  rw [hu, he]
  simp only [List.mem_append, List.mem_cons]
  tauto

theorem mem_updateFirst (h : l.find? p = some a) (hb : b ∈ updateFirst p f l) : b = f a ∨ b ∈ l :=
  ((mem_updateFirst_iff h).1 hb).imp_right List.mem_of_mem_eraseP

theorem filter_updateFirst (hpq : ∀ a, p a → q a) (hf : ∀ a, p a → q (f a)) :
    (updateFirst p f l).filter q = updateFirst p f (l.filter q) := by
  induction l with
  | nil => rfl
  | cons b l ih =>
    by_cases hb : p b = true
    · simp [updateFirst, hb, hpq b hb, hf b hb]
    · have hcons : updateFirst p f (b :: l) = b :: updateFirst p f l := by simp [updateFirst, hb]
      rw [hcons, List.filter_cons, List.filter_cons, ih]
      split
      · simp [updateFirst, hb]
      · rfl

theorem filter_eraseP (hpq : ∀ a, p a → q a) : (l.eraseP p).filter q = (l.filter q).eraseP p := by
  induction l with
  | nil => rfl
  | cons b l ih =>
    by_cases hb : p b = true
    · simp [hb, hpq b hb]
    · rw [List.eraseP_cons_of_neg hb, List.filter_cons, List.filter_cons, ih]
      split
      · rw [List.eraseP_cons_of_neg hb]
      · rfl

theorem filter_updateFirst_of_not (hpq : ∀ a, p a → ¬ q a) (hf : ∀ a, p a → ¬ q (f a)) :
    (updateFirst p f l).filter q = l.filter q := by
  cases h : l.find? p with
  | none => rw [updateFirst_of_none h]
  | some a =>
    have ha := List.find?_some h
    obtain ⟨l₁, l₂, hl, -, hu⟩ := updateFirst_of_find? (f := f) h
    rw [hu, hl, List.filter_append, List.filter_append, List.filter_cons_of_neg (hf a ha), List.filter_cons_of_neg (hpq a ha)]

theorem filter_eraseP_of_not (hpq : ∀ a, p a → ¬ q a) : (l.eraseP p).filter q = l.filter q := by
  cases h : l.find? p with
  | none => rw [List.eraseP_of_forall_not (List.find?_eq_none.1 h)]
  | some a =>
    obtain ⟨l₁, l₂, hl, he, -⟩ := updateFirst_of_find? (f := id) h
    rw [he, hl, List.filter_append, List.filter_append, List.filter_cons_of_neg (hpq a (List.find?_some h))]

theorem mem_eraseP_of_mem (hb : b ∈ l) : l.find? p = some b ∨ b ∈ l.eraseP p := by
  cases h : l.find? p with
  | none =>
    rw [List.eraseP_of_forall_not (List.find?_eq_none.1 h)]
    exact .inr hb
  | some a =>
    obtain ⟨l₁, l₂, hl, he, -⟩ := updateFirst_of_find? (f := id) h
    rw [hl, List.mem_append, List.mem_cons] at hb
    rw [he, List.mem_append]
    rcases hb with hb | rfl | hb
    · exact .inr (.inl hb)
    · exact .inl rfl
    · exact .inr (.inr hb)

def upsertFirst (p : α → Bool) (a : α) (l : List α) : List α :=
  match l.find? p with
  | some _ => updateFirst p (fun _ => a) l
  | none => l ++ [a]

theorem upsertFirst_of_none (h : l.find? p = none) : upsertFirst p a l = l ++ [a] := by
  rw [upsertFirst, h]

theorem upsertFirst_of_some (h : l.find? p = some b) : upsertFirst p a l = updateFirst p (fun _ => a) l := by
  rw [upsertFirst, h]

theorem mem_upsertFirst : b ∈ upsertFirst p a l ↔ b = a ∨ b ∈ l.eraseP p := by
  cases h : l.find? p with
  | none =>
    rw [upsertFirst_of_none h, List.eraseP_of_forall_not (List.find?_eq_none.1 h), List.mem_append, List.mem_singleton]
    exact or_comm
  | some c => rw [upsertFirst_of_some h, mem_updateFirst_iff h]

theorem nodup_map_upsertFirst {β : Type*} {v : α → β} (h : (l.map v).Nodup) :
    ((upsertFirst p a l).map v).Nodup ↔ ∀ b ∈ l, v b = v a → ∃ c, l.find? p = some c ∧ v c = v a := by
  cases hf : l.find? p with
  | none =>
    rw [upsertFirst_of_none hf, List.map_append, List.nodup_append']
    simp [h]
  | some c =>
    obtain ⟨l₁, l₂, hl, -, hu⟩ := updateFirst_of_find? (f := fun _ => a) hf
    rw [← upsertFirst_of_some hf] at hu
    rw [hl, List.map_append, List.map_cons, List.nodup_middle] at h
    obtain ⟨hc, h⟩ := List.nodup_cons.1 h
    rw [hu, List.map_append, List.map_cons, List.nodup_middle, List.nodup_cons]
    constructor
    · rintro ⟨ha, -⟩ b hb hva
      rw [hl, List.mem_append, List.mem_cons] at hb
      rcases hb with hb | rfl | hb
      · exact absurd (List.mem_append_left _ (hva ▸ List.mem_map_of_mem hb)) ha
      · exact ⟨b, rfl, hva⟩
      · exact absurd (List.mem_append_right _ (hva ▸ List.mem_map_of_mem hb)) ha
    · intro hsame
      refine ⟨fun ha => ?_, h⟩
      have hold : ∃ b ∈ l, v b = v a := by
        rcases List.mem_append.1 ha with ha | ha <;> obtain ⟨b, hb, hva⟩ := List.mem_map.1 ha
        · exact ⟨b, by rw [hl]; exact List.mem_append_left _ hb, hva⟩
        · exact ⟨b, by rw [hl]; exact List.mem_append_right _ (List.mem_cons_of_mem c hb), hva⟩
      obtain ⟨b, hb, hva⟩ := hold
      obtain ⟨c', hc', hvc⟩ := hsame b hb hva
      obtain rfl := Option.some.inj hc'
      exact hc (hvc ▸ ha)

end FirstMatch
