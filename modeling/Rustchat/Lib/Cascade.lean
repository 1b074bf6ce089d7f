import Mathlib.Logic.Relation
import Rustchat.Lib.Assoc

/-!
# Deletes that cascade

The rows of a table refer to rows of the same table, and a row is deleted with the row that it refers to
(`ON DELETE CASCADE`). `delete p` takes out the rows that meet `p`, then as often as there are rows those that refer to
none. What is left is closed again, and a row is left exactly if none that it hangs on meets `p`
(`lookup_delete_iff`).
-/

namespace Cascade

variable {κ ν : Type*} [DecidableEq κ] (ref : ν → Option κ)

/-- Every reference is to a row that exists. -/
def Closed (m : Assoc κ ν) : Prop := ∀ k v r, m.lookup k = some v → ref v = some r → r ∈ m

def dangling (m : Assoc κ ν) (k : κ) : Bool := ((m.lookup k).bind ref).any (· ∉ m)

/-- Delete the dangling rows, then those that this leaves dangling, `n` times. -/
def sweep : ℕ → Assoc κ ν → Assoc κ ν
  | 0, m => m
  | n + 1, m => sweep n (Assoc.eraseWhere (dangling ref m) m)

def delete (p : κ → ν → Bool) (m : Assoc κ ν) : Assoc κ ν :=
  let left := Assoc.eraseWhere (fun k => (m.lookup k).any (p k)) m
  sweep ref left.keys.length left

/-- The row is `r`, or refers to a row that hangs on `r`. -/
def Hangs (m : Assoc κ ν) : κ → κ → Prop :=
  Relation.ReflTransGen fun k r => ∃ v, m.lookup k = some v ∧ ref v = some r

variable {ref} {m : Assoc κ ν} {n : ℕ} {k r : κ} {v : ν} {p : κ → ν → Bool}

/-! ### Rounds -/

theorem dangling_eq_true : dangling ref m k = true ↔ ∃ v r, m.lookup k = some v ∧ ref v = some r ∧ r ∉ m := by
  simp only [dangling, Option.any_eq_true, Option.bind_eq_some_iff, decide_eq_true_eq]
  constructor
  · rintro ⟨r, ⟨v, hv, hr⟩, hn⟩
    exact ⟨v, r, hv, hr, hn⟩
  · rintro ⟨v, r, hv, hr, hn⟩
    exact ⟨r, ⟨v, hv, hr⟩, hn⟩

theorem closed_iff : Closed ref m ↔ ∀ k, dangling ref m k = false := by
  simp only [← Bool.not_eq_true, dangling_eq_true]
  constructor
  · rintro h k ⟨v, r, hv, hr, hn⟩
    exact hn (h k v r hv hr)
  · intro h k v r hv hr
    by_contra hn
    exact h k ⟨v, r, hv, hr, hn⟩

theorem lookup_of_sweep (h : (sweep ref n m).lookup k = some v) : m.lookup k = some v := by
  induction n generalizing m with
  | zero => exact h
  | succ n ih =>
    have hround := ih h
    rw [Assoc.lookup_eraseWhere] at hround
    split at hround
    · cases hround
    · exact hround

theorem sweep_of_closed (h : Closed ref m) : sweep ref n m = m := by
  induction n with
  | zero => rfl
  | succ n ih =>
    have hround : Assoc.eraseWhere (dangling ref m) m = m := by
      refine AList.ext (List.filter_eq_self.2 fun e _ => ?_)
      rw [closed_iff.1 h e.1]
      rfl
    rw [sweep, hround, ih]

theorem closed_sweep (h : m.keys.length ≤ n) : Closed ref (sweep ref n m) := by
  induction n generalizing m with
  | zero =>
    intro k v r hv
    have hmem : k ∈ m.keys := AList.mem_keys.2 (AList.lookup_isSome.1 (Option.isSome_iff_exists.2 ⟨v, hv⟩))
    have hpos := List.length_pos_of_mem hmem
    omega
  | succ n ih =>
    by_cases hclosed : Closed ref m
    · rw [sweep_of_closed hclosed]
      exact hclosed
    · rw [closed_iff, not_forall] at hclosed
      obtain ⟨k, hk⟩ := hclosed
      rw [Bool.not_eq_false] at hk
      refine ih (Nat.le_of_lt_succ (Nat.lt_of_lt_of_le ?_ h))
      obtain ⟨v, -, hv, -, -⟩ := dangling_eq_true.1 hk
      have hlen (m : Assoc κ ν) : m.keys.length = m.entries.length := List.length_map _
      rw [hlen, hlen]
      refine List.length_filter_lt_length_iff_exists.2 ⟨⟨k, v⟩, Assoc.mem_entries_iff.2 hv, ?_⟩
      simp [hk]

theorem lookup_sweep {K : Set κ} (hK : ∀ k ∈ K, ∃ v, m.lookup k = some v ∧ ∀ r, ref v = some r → r ∈ K)
    (hk : k ∈ K) : (sweep ref n m).lookup k = m.lookup k := by
  induction n generalizing m with
  | zero => rfl
  | succ n ih =>
    have hround : ∀ k ∈ K, (Assoc.eraseWhere (dangling ref m) m).lookup k = m.lookup k := by
      intro k hk
      rw [Assoc.lookup_eraseWhere, if_neg]
      intro hdangling
      obtain ⟨v, r, hv, hr, hn⟩ := dangling_eq_true.1 hdangling
      obtain ⟨v', hv', href⟩ := hK k hk
      rw [Option.some.inj (hv.symm.trans hv')] at hr
      obtain ⟨w, hw, -⟩ := hK r (href r hr)
      exact hn (AList.lookup_isSome.1 (Option.isSome_iff_exists.2 ⟨w, hw⟩))
    rw [sweep, ih fun k hk => (hround k hk).symm ▸ hK k hk, hround k hk]

/-! ### Deletes -/

theorem closed_delete : Closed ref (delete ref p m) := closed_sweep (le_refl _)

theorem lookup_of_delete (h : (delete ref p m).lookup k = some v) : m.lookup k = some v ∧ p k v = false := by
  have hleft := lookup_of_sweep h
  rw [Assoc.lookup_eraseWhere] at hleft
  split at hleft
  · cases hleft
  · next hp =>
    rw [hleft, Option.any_some, Bool.not_eq_true] at hp
    exact ⟨hleft, hp⟩

theorem mem_delete_of_hangs (hk : k ∈ delete ref p m) (h : Hangs ref m k r) : r ∈ delete ref p m := by
  induction h with
  | refl => exact hk
  | @tail b c _ hstep ih =>
    obtain ⟨v, hv, hc⟩ := hstep
    obtain ⟨w, hw⟩ := Option.isSome_iff_exists.1 (AList.lookup_isSome.2 ih)
    have hwv : w = v := Option.some.inj ((lookup_of_delete hw).1.symm.trans hv)
    exact closed_delete b v c (hwv ▸ hw) hc

theorem lookup_delete_iff (hm : Closed ref m) : (delete ref p m).lookup k = some v ↔
    m.lookup k = some v ∧ ∀ r w, Hangs ref m k r → m.lookup r = some w → p r w = false := by
  constructor
  · intro h
    refine ⟨(lookup_of_delete h).1, fun r w hr hw => ?_⟩
    have hmem := mem_delete_of_hangs (AList.lookup_isSome.1 (Option.isSome_iff_exists.2 ⟨v, h⟩)) hr
    obtain ⟨w', hw'⟩ := Option.isSome_iff_exists.1 (AList.lookup_isSome.2 hmem)
    obtain ⟨hlookup, hp⟩ := lookup_of_delete hw'
    rwa [Option.some.inj (hlookup.symm.trans hw)] at hp
  · rintro ⟨hv, h⟩
    let K : Set κ := {k | k ∈ m ∧ ∀ r w, Hangs ref m k r → m.lookup r = some w → p r w = false}
    have hleft : ∀ k ∈ K, (Assoc.eraseWhere (fun k => (m.lookup k).any (p k)) m).lookup k = m.lookup k := by
      rintro k ⟨-, hk⟩
      rw [Assoc.lookup_eraseWhere, if_neg]
      rw [Option.any_eq_true]
      rintro ⟨w, hw, hp⟩
      rw [hk k w .refl hw] at hp
      cases hp
    have hmem : k ∈ K := ⟨AList.lookup_isSome.1 (Option.isSome_iff_exists.2 ⟨v, hv⟩), h⟩
    rw [delete, lookup_sweep (K := K) (fun k hk => ?_) hmem, hleft k hmem, hv]
    obtain ⟨w, hw⟩ := Option.isSome_iff_exists.1 (AList.lookup_isSome.2 hk.1)
    refine ⟨w, (hleft k hk).trans hw, fun r hr => ⟨hm k w r hw hr, fun r' w' hr' => ?_⟩⟩
    exact hk.2 r' w' (.head ⟨w, hw, hr⟩ hr')

end Cascade
