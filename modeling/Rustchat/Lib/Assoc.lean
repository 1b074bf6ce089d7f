import Mathlib.Algebra.BigOperators.Group.List.Basic
import Mathlib.Algebra.GroupWithZero.Nat
import Mathlib.Data.Fintype.EquivFin
import Mathlib.Data.List.AList

/-!
# Finite maps

`Assoc κ ν` is the model of a hash map: an association list without duplicate keys. `modify` is the
in-place update of the value of a key that may be absent, `insertNew` an insert that leaves what is there, `mapValues` that of all values, and `replace` puts
a value in the place of another or takes it out. `Any` says that some value meets a predicate, and `total` adds
up weights of the values. `views` lists what a projection shows of the entries, and `views_modify_perm_iff` says
when an update changes nothing of it.
-/

/-- A finite map from `κ` to `ν`. -/
abbrev Assoc (κ ν : Type*) := AList fun _ : κ => ν

namespace Assoc

variable {κ ν : Type*} [DecidableEq κ] {m : Assoc κ ν} {k k' : κ} {v : ν}

theorem lookup_insert_eq : (m.insert k v).lookup k' = if k' = k then some v else m.lookup k' := by
  split
  · subst k'; exact AList.lookup_insert m
  · exact AList.lookup_insert_ne ‹_›

theorem lookup_insert_self : (m.insert k v).lookup k = some v := AList.lookup_insert m

theorem lookup_erase_eq : (m.erase k).lookup k' = if k' = k then none else m.lookup k' := by
  split
  · subst k'; exact AList.lookup_erase k m
  · exact AList.lookup_erase_ne ‹_›

theorem lookup_insert_cases {w : ν} (h : (m.insert k v).lookup k' = some w) :
    k' = k ∧ v = w ∨ k' ≠ k ∧ m.lookup k' = some w := by
  rw [lookup_insert_eq] at h
  split at h
  · next hk => exact .inl ⟨hk, Option.some.inj h⟩
  · next hk => exact .inr ⟨hk, h⟩

theorem lookup_erase_cases {w : ν} (h : (m.erase k).lookup k' = some w) : k' ≠ k ∧ m.lookup k' = some w := by
  rw [lookup_erase_eq] at h
  split at h
  · cases h
  · next hk => exact ⟨hk, h⟩

theorem erase_insert_self : (m.insert k v).erase k = m.erase k := by
  apply AList.ext
  have hhead : k = (⟨k, v⟩ : Sigma fun _ : κ => ν).1 := rfl
  exact List.kerase_cons_eq hhead

theorem lookup_foldl_erase {ks : List κ} :
    (ks.foldl (fun m k => m.erase k) m).lookup k = if k ∈ ks then none else m.lookup k := by
  induction ks generalizing m with
  | nil => rfl
  | cons k' ks ih =>
    rw [List.foldl_cons, ih, lookup_erase_eq]
    by_cases hk : k = k'
    · simp [hk]
    · simp [hk]

theorem exists_lookup_none [Infinite κ] (m : Assoc κ ν) : ∃ k, m.lookup k = none := by
  obtain ⟨k, hk⟩ := Infinite.exists_notMem_finset m.keys.toFinset
  refine ⟨k, AList.lookup_eq_none.2 fun hmem => hk ?_⟩
  exact List.mem_toFinset.2 (AList.mem_keys.1 hmem)

theorem mem_keys_insert : k' ∈ (m.insert k v).keys ↔ k' = k ∨ k' ∈ m.keys := by
  rw [← AList.mem_keys, ← AList.mem_keys, AList.mem_insert]

theorem mem_sndKeys {α β : Type*} [DecidableEq α] [DecidableEq β] {m : Assoc (α × β) ν} {a : α} {b : β} :
    b ∈ (m.keys.filterMap fun k => if k.1 = a then some k.2 else none) ↔ (a, b) ∈ m := by
  rw [List.mem_filterMap]
  constructor
  · rintro ⟨⟨a', b'⟩, hkey, hfound⟩
    obtain ⟨rfl, hb⟩ := Option.ite_none_right_eq_some.1 hfound
    cases hb
    exact AList.mem_keys.1 hkey
  · exact fun h => ⟨(a, b), AList.mem_keys.2 h, if_pos rfl⟩

theorem nodup_sndKeys {α β : Type*} [DecidableEq α] {m : Assoc (α × β) ν} {a : α} :
    (m.keys.filterMap fun k => if k.1 = a then some k.2 else none).Nodup := by
  refine List.Nodup.filterMap (fun k k' b hk hk' => ?_) m.keys_nodup
  simp only [Option.mem_def, Option.ite_none_right_eq_some, Option.some.injEq] at hk hk'
  exact Prod.ext (hk.1.trans hk'.1.symm) (hk.2.trans hk'.2.symm)

theorem mem_keys_erase : k' ∈ (m.erase k).keys ↔ k' ≠ k ∧ k' ∈ m.keys := by
  rw [← AList.mem_keys, ← AList.mem_keys, AList.mem_erase]

theorem mem_foldl_insert {pairs : List (κ × ν)} :
    k ∈ pairs.foldl (fun m p => m.insert p.1 p.2) m ↔ k ∈ m ∨ ∃ p ∈ pairs, p.1 = k := by
  induction pairs generalizing m with
  | nil => simp
  | cons p pairs ih =>
    rw [List.foldl_cons, ih, AList.mem_insert, or_comm (a := k = p.1), or_assoc]
    simp [eq_comm]

theorem lookup_foldl_insert {pairs : List (κ × ν)} (hv : ∀ p ∈ pairs, p.1 = k → p.2 = v)
    (h : (∃ p ∈ pairs, p.1 = k) ∨ m.lookup k = some v) :
    (pairs.foldl (fun m p => m.insert p.1 p.2) m).lookup k = some v := by
  induction pairs generalizing m with
  | nil => exact h.resolve_left fun ⟨_, hp, _⟩ => List.not_mem_nil hp
  | cons p pairs ih =>
    refine ih (fun q hq => hv q (List.mem_cons_of_mem _ hq)) ?_
    by_cases hk : p.1 = k
    · right
      rw [lookup_insert_eq, if_pos hk.symm, hv p List.mem_cons_self hk]
    · rcases h with ⟨q, hq, hqk⟩ | h
      · rcases List.mem_cons.1 hq with rfl | hq
        · exact absurd hqk hk
        · exact .inl ⟨q, hq, hqk⟩
      · right
        rw [lookup_insert_eq, if_neg (Ne.symm hk), h]

/-- Apply `f` to the value of `k`, if `k` is present. -/
def modify (k : κ) (f : ν → ν) (m : Assoc κ ν) : Assoc κ ν :=
  match m.lookup k with
  | some v => m.insert k (f v)
  | none => m

theorem modify_of_lookup (f : ν → ν) (h : m.lookup k = some v) : modify k f m = m.insert k (f v) := by
  rw [modify, h]

theorem modify_of_none (f : ν → ν) (h : m.lookup k = none) : modify k f m = m := by
  rw [modify, h]

theorem lookup_modify (f : ν → ν) :
    (modify k f m).lookup k' = if k' = k then (m.lookup k).map f else m.lookup k' := by
  cases h : m.lookup k with
  | none =>
    rw [modify_of_none f h]
    split
    · subst k'; exact h
    · rfl
  | some v => rw [modify_of_lookup f h, lookup_insert_eq]; rfl

theorem mem_keys_modify {f : ν → ν} : k' ∈ (modify k f m).keys ↔ k' ∈ m.keys := by
  cases h : m.lookup k with
  | none => rw [modify_of_none f h]
  | some v =>
    have hk : k ∈ m.keys := AList.mem_keys.1 (AList.lookup_isSome.1 (by rw [h]; rfl))
    rw [modify_of_lookup f h, mem_keys_insert]
    exact ⟨fun hk' => hk'.elim (fun he => he ▸ hk) id, .inr⟩

/-- Apply `f` to every value. -/
def mapValues {ν' : Type*} (f : ν → ν') (m : Assoc κ ν) : Assoc κ ν' where
  entries := m.entries.map fun e => ⟨e.1, f e.2⟩
  nodupKeys := by
    have h := m.nodupKeys
    unfold List.NodupKeys List.keys at h ⊢
    rw [List.map_map]; exact h

theorem lookup_mapValues {ν' : Type*} (f : ν → ν') : (mapValues f m).lookup k = (m.lookup k).map f :=
  List.dlookup_map₂ (f := fun _ => f) k

/-- Apply `f` to every key and its value. -/
def mapEntries {ν' : Type*} (f : κ → ν → ν') (m : Assoc κ ν) : Assoc κ ν' where
  entries := m.entries.map fun e => ⟨e.1, f e.1 e.2⟩
  nodupKeys := by
    have h := m.nodupKeys
    unfold List.NodupKeys List.keys at h ⊢
    rw [List.map_map]; exact h

theorem lookup_mapEntries {ν' : Type*} (f : κ → ν → ν') : (mapEntries f m).lookup k = (m.lookup k).map (f k) :=
  List.dlookup_map₂ k

theorem mem_modify {f : ν → ν} : k' ∈ modify k f m ↔ k' ∈ m := by
  rw [AList.mem_keys, AList.mem_keys, mem_keys_modify]

theorem mem_mapValues {ν' : Type*} {f : ν → ν'} : k ∈ mapValues f m ↔ k ∈ m := by
  rw [← AList.lookup_isSome, ← AList.lookup_isSome, lookup_mapValues, Option.isSome_map]

theorem perm_insert_self (h : m.lookup k = some v) : (m.insert k v).entries.Perm m.entries := by
  refine List.lookup_ext (m.insert k v).nodupKeys m.nodupKeys fun k' v' => ?_
  show v' ∈ (m.insert k v).lookup k' ↔ v' ∈ m.lookup k'
  rw [lookup_insert_eq]
  split
  · subst k'; rw [h]
  · rfl

theorem mem_entries_iff : (⟨k, v⟩ : Sigma fun _ : κ => ν) ∈ m.entries ↔ m.lookup k = some v :=
  AList.mem_lookup_iff.symm

/-- Take out the keys that meet `p`. -/
def eraseWhere (p : κ → Bool) (m : Assoc κ ν) : Assoc κ ν where
  entries := m.entries.filter fun e => !p e.1
  nodupKeys := m.nodupKeys.sublist List.filter_sublist

theorem lookup_eraseWhere {p : κ → Bool} : (eraseWhere p m).lookup k = if p k then none else m.lookup k := by
  refine Option.ext fun v => ?_
  have hmem : (eraseWhere p m).lookup k = some v ↔ m.lookup k = some v ∧ p k = false := by
    rw [← mem_entries_iff, ← mem_entries_iff, eraseWhere, List.mem_filter, Bool.not_eq_true']
  rw [hmem]
  cases p k <;> simp

theorem mem_eraseWhere {p : κ → Bool} : k ∈ eraseWhere p m ↔ p k = false ∧ k ∈ m := by
  rw [← AList.lookup_isSome, ← AList.lookup_isSome, lookup_eraseWhere]
  cases p k <;> simp

/-- Insert unless the key is there. -/
def insertNew (k : κ) (v : ν) (m : Assoc κ ν) : Assoc κ ν := if k ∈ m then m else m.insert k v

theorem mem_insertNew : k' ∈ insertNew k v m ↔ k' ∈ m ∨ k' = k := by
  unfold insertNew
  split
  · next hk =>
    refine ⟨.inl, fun h => h.elim (fun h => h) ?_⟩
    rintro rfl
    exact hk
  · rw [AList.mem_insert, or_comm]

theorem insertNew_of_mem (h : k ∈ m) : insertNew k v m = m := if_pos h

variable {p : ν → Prop} {o : Option ν} {w : ν}

/-- Some value meets `p`. -/
def Any (p : ν → Prop) (m : Assoc κ ν) : Prop := ∃ k v, m.lookup k = some v ∧ p v

/-- Put `o` in the place of the value of `k`. -/
def replace (k : κ) (o : Option ν) (m : Assoc κ ν) : Assoc κ ν :=
  match o with
  | some v => m.insert k v
  | none => m.erase k

theorem lookup_replace : (replace k o m).lookup k' = if k' = k then o else m.lookup k' := by
  cases o with
  | none => exact lookup_erase_eq
  | some v => exact lookup_insert_eq

theorem not_any_empty : ¬ Any p (∅ : Assoc κ ν) := by
  rintro ⟨k, v, hl, -⟩
  rw [AList.lookup_empty] at hl
  cases hl

theorem Any.of_replace (h : Any p (replace k o m)) : (∃ v, o = some v ∧ p v) ∨ Any p m := by
  obtain ⟨k', v, hl, hv⟩ := h
  rw [lookup_replace] at hl
  split at hl
  · exact .inl ⟨v, hl, hv⟩
  · exact .inr ⟨k', v, hl, hv⟩

theorem Any.replace (h : Any p m) (hw : m.lookup k = some w) (ho : p w → ∃ v, o = some v ∧ p v) :
    Any p (replace k o m) := by
  obtain ⟨k', v, hl, hv⟩ := h
  by_cases hk : k' = k
  · subst hk
    obtain rfl := Option.some.inj (hw.symm.trans hl)
    obtain ⟨v', ho, hv'⟩ := ho hv
    exact ⟨k', v', by rw [lookup_replace, if_pos rfl, ho], hv'⟩
  · exact ⟨k', v, by rw [lookup_replace, if_neg hk, hl], hv⟩

theorem any_insert_new (hk : m.lookup k = none) : Any p (m.insert k v) ↔ p v ∨ Any p m := by
  constructor
  · intro h
    rcases Any.of_replace (o := some v) h with ⟨v', ho, hv'⟩ | h
    · obtain rfl := Option.some.inj ho
      exact .inl hv'
    · exact .inr h
  · rintro (hv | ⟨k', v', hl, hv'⟩)
    · exact ⟨k, v, lookup_insert_self, hv⟩
    · refine ⟨k', v', ?_, hv'⟩
      rw [lookup_insert_eq, if_neg, hl]
      rintro rfl
      rw [hk] at hl
      cases hl

theorem any_insert_of_lookup (hw : m.lookup k = some w) (h : p v ↔ p w) : Any p (m.insert k v) ↔ Any p m := by
  constructor
  · intro hany
    rcases Any.of_replace (o := some v) hany with ⟨v', ho, hv'⟩ | hany
    · cases ho
      exact ⟨k, w, hw, h.1 hv'⟩
    · exact hany
  · intro hany
    exact hany.replace hw fun hp => ⟨v, rfl, h.2 hp⟩

theorem any_iff_find? (q : ν → Bool) (h : ∀ v, q v = true ↔ p v) :
    Any p m ↔ (m.entries.find? fun e => q e.2) ≠ none := by
  rw [Ne, List.find?_eq_none]
  simp only [not_forall, not_not]
  constructor
  · rintro ⟨k, v, hl, hv⟩
    exact ⟨⟨k, v⟩, mem_entries_iff.2 hl, (h v).2 hv⟩
  · rintro ⟨⟨k, v⟩, hmem, hq⟩
    exact ⟨k, v, mem_entries_iff.1 hmem, (h v).1 hq⟩

/-! ### Weights -/

variable {f g : ν → ℕ}

def total (f : ν → ℕ) (m : Assoc κ ν) : ℕ := (m.entries.map fun e => f e.2).sum

theorem total_insert : total f (m.insert k v) = f v + total f (m.erase k) := rfl

theorem total_eq_of_lookup (h : m.lookup k = some v) : total f m = f v + total f (m.erase k) := by
  rw [← total_insert]
  exact ((perm_insert_self h).symm.map _).sum_nat

theorem total_insert_new (h : m.lookup k = none) : total f (m.insert k v) = f v + total f m := by
  have hk : k ∉ m := AList.lookup_eq_none.1 h
  unfold total
  rw [AList.entries_insert_of_notMem hk, List.map_cons, List.sum_cons]

theorem total_replace (h : m.lookup k = some v) : total f (replace k o m) + f v = total f m + o.elim 0 f := by
  rw [total_eq_of_lookup h]
  cases o with
  | none => exact Nat.add_comm _ _
  | some w =>
    show f w + total f (m.erase k) + f v = _
    rw [Option.elim_some]
    omega

theorem total_insert_of_lookup (h : m.lookup k = some w) : total f (m.insert k v) + f w = total f m + f v :=
  total_replace (o := some v) h

omit [DecidableEq κ] in
theorem total_add : total (fun v => f v + g v) m = total f m + total g m := List.sum_map_add

theorem total_congr (h : ∀ k v, m.lookup k = some v → f v = g v) : total f m = total g m := by
  unfold total
  refine congrArg List.sum (List.map_congr_left fun e he => ?_)
  exact h e.1 e.2 (mem_entries_iff.1 he)

/-! ### Views -/

variable {ω : Type*} {g : κ → ν → Option ω} {f : ν → ν} {w : ω}

/-- What `g` shows of the entries. -/
def views (g : κ → ν → Option ω) (m : Assoc κ ν) : List ω := m.entries.filterMap fun e => g e.1 e.2

theorem mem_views : w ∈ views g m ↔ ∃ k v, m.lookup k = some v ∧ g k v = some w := by
  unfold views
  rw [List.mem_filterMap]
  constructor
  · rintro ⟨⟨k, v⟩, he, hg⟩
    exact ⟨k, v, mem_entries_iff.1 he, hg⟩
  · rintro ⟨k, v, hl, hg⟩
    exact ⟨⟨k, v⟩, mem_entries_iff.2 hl, hg⟩

omit [DecidableEq κ] in
theorem nodup_map_views {φ : ω → κ} (h : ∀ k v w, g k v = some w → φ w = k) : ((views g m).map φ).Nodup := by
  unfold views
  rw [List.map_filterMap]
  refine List.Pairwise.filterMap _ (fun e e' hne k hk k' hk' => ?_) (List.nodupKeys_iff_pairwise.1 m.nodupKeys)
  obtain ⟨w, hw, rfl⟩ := Option.map_eq_some_iff.1 hk
  obtain ⟨w', hw', rfl⟩ := Option.map_eq_some_iff.1 hk'
  rw [h _ _ _ hw, h _ _ _ hw']
  exact hne

theorem views_insert_new (h : k ∉ m) : views g (m.insert k v) = (g k v).toList ++ views g m := by
  unfold views
  rw [AList.entries_insert_of_notMem h, List.filterMap_cons]
  cases g k v with
  | none => rfl
  | some w => rfl

theorem views_modify_perm (h : ∀ v, m.lookup k = some v → g k (f v) = g k v) :
    (views g (modify k f m)).Perm (views g m) := by
  cases hl : m.lookup k with
  | none => rw [modify_of_none f hl]
  | some v =>
    have hviews : (views g (m.insert k v)).Perm (views g m) := (perm_insert_self hl).filterMap _
    rw [modify_of_lookup f hl]
    unfold views at hviews ⊢
    rw [AList.entries_insert, List.filterMap_cons] at hviews ⊢
    rw [show g k (f v) = g k v from h v hl]
    exact hviews

theorem views_perm_of_lookup (h : m.lookup k = some v) :
    (views g m).Perm ((g k v).toList ++ views g (m.erase k)) := by
  have hcons : views g (m.insert k v) = (g k v).toList ++ views g (m.erase k) := by
    unfold views
    rw [AList.entries_insert, List.filterMap_cons]
    cases g k v with
    | none => rfl
    | some w => rfl
  rw [← hcons]
  exact (perm_insert_self h).symm.filterMap _

theorem length_views_modify (h : m.lookup k = some v) :
    (views g (modify k f m)).length + (g k v).toList.length = (views g m).length + (g k (f v)).toList.length := by
  have hmod : (modify k f m).lookup k = some (f v) := by rw [lookup_modify, if_pos rfl, h]; rfl
  have hrest : (modify k f m).erase k = m.erase k := by rw [modify_of_lookup f h, erase_insert_self]
  rw [(views_perm_of_lookup h).length_eq, (views_perm_of_lookup hmod).length_eq, hrest, List.length_append,
    List.length_append]
  omega

theorem views_modify_perm_iff (hg : ∀ k v k' v' w, g k v = some w → g k' v' = some w → k = k') :
    (views g (modify k f m)).Perm (views g m) ↔ ∀ v, m.lookup k = some v → g k (f v) = g k v := by
  refine ⟨fun hp v hl => ?_, views_modify_perm⟩
  have hmod : (modify k f m).lookup k = some (f v) := by rw [lookup_modify, if_pos rfl, hl]; rfl
  cases hnew : g k (f v) with
  | some w =>
    obtain ⟨k', v', hl', hg'⟩ := mem_views.1 (hp.mem_iff.1 (mem_views.2 ⟨k, f v, hmod, hnew⟩))
    obtain rfl := hg _ _ _ _ _ hnew hg'
    rw [hl] at hl'
    obtain rfl := Option.some.inj hl'
    exact hg'.symm
  | none =>
    cases hold : g k v with
    | none => rfl
    | some w =>
      obtain ⟨k', v', hl', hg'⟩ := mem_views.1 (hp.mem_iff.2 (mem_views.2 ⟨k, v, hl, hold⟩))
      obtain rfl := hg _ _ _ _ _ hold hg'
      rw [hmod] at hl'
      obtain rfl := Option.some.inj hl'
      rw [hnew] at hg'
      cases hg'

end Assoc
