import Mathlib.Data.Set.Insert

/-!
# A thing and its owners

An `Owned κ` is there or not, and has owners. `add k` makes it for `k` if it is not there and `k` is none of its owners;
`drop k` takes `k` from its owners, and the thing with the last of them. An owner of a thing that is gone may stay an
owner, and who adds a thing that is there does not become one.
-/

@[ext]
structure Owned (κ : Type*) where
  present : Prop
  owners : Set κ

namespace Owned

variable {κ : Type*} {s : Owned κ} {k : κ}

def add (k : κ) (s : Owned κ) : Owned κ where
  present := s.present ∨ k ∉ s.owners
  owners := {x | x ∈ s.owners ∨ x = k ∧ ¬ s.present}

def drop (k : κ) (s : Owned κ) : Owned κ where
  present := s.present ∧ (k ∈ s.owners → ∃ x ∈ s.owners, x ≠ k)
  owners := {x | x ∈ s.owners ∧ x ≠ k}

theorem add_of_present (h : s.present) : s.add k = s := by
  ext x
  · exact or_iff_left_of_imp fun _ => h
  · exact or_iff_left fun hx => hx.2 h

theorem add_of_owner (h : k ∈ s.owners) : s.add k = s := by
  ext x
  · exact or_iff_left fun hk => hk h
  · exact or_iff_left_of_imp fun hx => hx.1 ▸ h

theorem drop_of_not_owner (h : k ∉ s.owners) : s.drop k = s := by
  ext x
  · exact and_iff_left fun hk => absurd hk h
  · exact and_iff_left_of_imp fun hx he => h (he ▸ hx)

end Owned
