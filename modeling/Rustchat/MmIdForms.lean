import Rustchat.MmId

/-!
# The texts that are read as an id

An id of 26 characters has 130 bits and a uuid 128. The encoder pads with zero bits; the decoder takes the last
character whatever its two low bits are, so that each uuid has four texts of lower-case letters and digits
(`decodeMmId_eq_some`), of which the encoder writes the first.
-/

namespace Rustchat

open Regroup

/-! ### The id of a uuid -/

theorem mem_mmIdAlphabet {u : Uuid} {c : Char} (h : c ∈ (encodeMmId u).toList) : c ∈ mmIdAlphabet := by
  rw [toList_encodeMmId] at h
  obtain ⟨i, hi, rfl⟩ := List.mem_map.1 h
  have hlt : i < mmIdAlphabet.length := encodeDigits_lt hi
  rw [List.getD_eq_getElem?_getD, List.getElem?_eq_getElem hlt]
  exact List.getElem_mem hlt

/-- `Uuid::parse_str` takes texts of these lengths in bytes: without hyphens, with them, in braces, and as URN. -/
def TakesForms (parseStr : String → Option Uuid) : Prop :=
  ∀ text u, parseStr text = some u → text.utf8ByteSize ∈ [32, 36, 38, 45]

theorem parseStr_encodeMmId {parseStr : String → Option Uuid} (h : TakesForms parseStr) (u : Uuid) :
    parseStr (encodeMmId u) = none := by
  cases hparse : parseStr (encodeMmId u) with
  | none => rfl
  | some v =>
    have hsize := h _ v hparse
    rw [utf8ByteSize_encodeMmId] at hsize
    exact absurd hsize (by decide)

/-- The id of a uuid has 26 characters of the alphabet, and is read as this uuid. -/
theorem mmId_roundTrip (parseStr : String → Option Uuid) (h : TakesForms parseStr) (u : Uuid) :
    decodeMmId (encodeMmId u) = some u ∧ (encodeMmId u).toList.length = 26 ∧
      (∀ c ∈ (encodeMmId u).toList, c ∈ mmIdAlphabet) ∧ parseMmOrUuid parseStr (encodeMmId u) = some u := by
  refine ⟨decodeMmId_encodeMmId u, ?_, fun c => mem_mmIdAlphabet, parse_encodeMmId (parseStr_encodeMmId h) u⟩
  rw [toList_encodeMmId, length_encodeBase32]

/-- Reading texts of 36 bytes. -/
def parseHyphenated (text : String) : Option Uuid := if text.utf8ByteSize = 36 then Uuid.ofHyphenated text else none

theorem five_roundTrip : decodeMmId (encodeMmId 5) = some 5 ∧ (encodeMmId 5).toList.length = 26 ∧
    (∀ c ∈ (encodeMmId 5).toList, c ∈ mmIdAlphabet) ∧ parseMmOrUuid parseHyphenated (encodeMmId 5) = some 5 := by
  refine mmId_roundTrip parseHyphenated (fun text u hu => ?_) 5
  rw [(Option.ite_none_right_eq_some.1 hu).1]
  decide

/-! ### What the decoder takes -/

/-- The characters of base-32 digits. -/
def mmIdText (digits : List Nat) : List Char := digits.map fun i => mmIdAlphabet.getD i 'y'

theorem toList_encodeMmId_eq (u : Uuid) : (encodeMmId u).toList = mmIdText (toDigits (2 ^ 5) 26 (u.toNat * 4)) := by
  rw [toList_encodeMmId, encodeBase32, encodeDigits_asBytes]
  rfl

theorem decodeChar_eq_some {c : Char} {i : Nat} : decodeChar c = some i ↔ i < 32 ∧ c.toLower = mmIdAlphabet.getD i 'y' := by
  constructor
  · intro h
    obtain ⟨hi, hget, -⟩ := List.idxOf?_eq_some_iff.1 h
    refine ⟨hi, ?_⟩
    rw [List.getD_eq_getElem?_getD, List.getElem?_eq_getElem hi, hget]
    rfl
  · rintro ⟨hi, hc⟩
    have hchar := decodeChar_alphabet i hi
    rw [decodeChar, (alphabet_lower i hi).1, ← hc] at hchar
    exact hchar

theorem mapM_decodeChar_eq_some {cs : List Char} {digits : List Nat} :
    cs.mapM decodeChar = some digits ↔ (∀ d ∈ digits, d < 32) ∧ cs.map Char.toLower = mmIdText digits := by
  induction cs generalizing digits with
  | nil =>
    cases digits with
    | nil => exact ⟨fun _ => ⟨List.forall_mem_nil _, rfl⟩, fun _ => rfl⟩
    | cons d digits => exact ⟨fun h => (by cases h), fun h => (by cases h.2)⟩
  | cons c cs ih =>
    rw [List.mapM_cons]
    constructor
    · intro h
      obtain ⟨d, hd, h⟩ := Option.bind_eq_some_iff.1 h
      obtain ⟨ds, hds, h⟩ := Option.bind_eq_some_iff.1 h
      obtain rfl := Option.some.inj h
      obtain ⟨hlt, hc⟩ := decodeChar_eq_some.1 hd
      obtain ⟨hlts, hcs⟩ := ih.1 hds
      refine ⟨List.forall_mem_cons.2 ⟨hlt, hlts⟩, ?_⟩
      rw [List.map_cons, hc, hcs]
      rfl
    · rintro ⟨hlts, hcs⟩
      cases digits with
      | nil => cases hcs
      | cons d ds =>
        obtain ⟨hc, hcs⟩ := List.cons.inj hcs
        obtain ⟨hlt, hlts⟩ := List.forall_mem_cons.1 hlts
        rw [decodeChar_eq_some.2 ⟨hlt, hc⟩, ih.2 ⟨hlts, hcs⟩]
        rfl

theorem run_digits {values : List Nat} (h : ∀ d ∈ values, d < 2 ^ 5) (hlen : values.length = 26) :
    (run 5 8 values).digits.length = 16 ∧
      ofDigits (2 ^ 8) (run 5 8 values).digits = ofDigits (2 ^ 5) values / 4 := by
  obtain ⟨hholds, hbits⟩ := run_spec (w := 5) (v := 8) (by decide) (by decide) h
  have htotal := hholds.total
  rw [hlen] at htotal
  have hlow : (run 5 8 values).bits = 2 := by omega
  have hvalue := hholds.value
  rw [hlow] at hvalue
  exact ⟨by omega, hvalue⟩

theorem length_of_mapM {cs : List Char} {digits : List Nat} (h : cs.mapM decodeChar = some digits) :
    digits.length = cs.length := by
  have hmap := congrArg List.length (mapM_decodeChar_eq_some.1 h).2
  rw [List.length_map, mmIdText, List.length_map] at hmap
  exact hmap.symm

theorem decodeMmId_of_digits {id : String} {values : List Nat} (h : id.toList.mapM decodeChar = some values) :
    decodeMmId id = if values.length = 26 then some (BitVec.ofNat 128 (ofDigits (2 ^ 5) values / 4)) else none := by
  obtain ⟨hchars, hlt⟩ := mapM_decodeChar_spec h
  rw [decodeMmId, utf8ByteSize_of_isAlphanum hchars, ← length_of_mapM h]
  by_cases hlen : values.length = 26
  · obtain ⟨hdigits, hvalue⟩ := run_digits hlt hlen
    rw [if_neg (not_not.2 hlen), if_pos hlen, decodeBase32, h, Option.bind_some, ← hvalue]
    simp only [hdigits, Nat.lt_irrefl, ↓reduceIte, Option.map_some, List.take_of_length_le (Nat.le_of_eq hdigits)]
  · rw [if_pos hlen, if_neg hlen]

theorem ofDigits_lt {values : List Nat} (h : ∀ d ∈ values, d < 2 ^ 5) : ofDigits (2 ^ 5) values < (2 ^ 5) ^ values.length := by
  have hdigits := ofDigits_toDigits (2 ^ 5) values.length (ofDigits (2 ^ 5) values)
  rw [toDigits_ofDigits h] at hdigits
  rw [hdigits]
  exact Nat.mod_lt _ (Nat.pow_pos (by decide))

theorem decodeMmId_eq_some {id : String} {u : Uuid} : decodeMmId id = some u ↔
    ∃ k < 4, id.toList.map Char.toLower = mmIdText (toDigits (2 ^ 5) 26 (u.toNat * 4 + k)) := by
  constructor
  · intro h
    cases hvalues : id.toList.mapM decodeChar with
    | none =>
      rw [decodeMmId, decodeBase32, hvalues] at h
      split at h <;> cases h
    | some values =>
      obtain ⟨hlt, htext⟩ := mapM_decodeChar_eq_some.1 hvalues
      rw [decodeMmId_of_digits hvalues] at h
      obtain ⟨hlen, hu⟩ := Option.ite_none_right_eq_some.1 h
      have hbound := ofDigits_lt hlt
      rw [hlen] at hbound
      have htoNat : u.toNat = ofDigits (2 ^ 5) values / 4 := by
        rw [← Option.some.inj hu, BitVec.toNat_ofNat]
        exact Nat.mod_eq_of_lt (by omega)
      refine ⟨ofDigits (2 ^ 5) values % 4, Nat.mod_lt _ (by decide), ?_⟩
      rw [htext, htoNat, Nat.div_add_mod', ← hlen, toDigits_ofDigits (B := 2 ^ 5) hlt]
  · rintro ⟨k, hk, htext⟩
    have hlt : ∀ d ∈ toDigits (2 ^ 5) 26 (u.toNat * 4 + k), d < 2 ^ 5 := fun d => lt_of_mem_toDigits (by decide)
    have hu := u.isLt
    rw [decodeMmId_of_digits (mapM_decodeChar_eq_some.2 ⟨hlt, htext⟩), if_pos (length_toDigits _ _ _), ofDigits_toDigits,
      Nat.mod_eq_of_lt (by omega), show (u.toNat * 4 + k) / 4 = u.toNat by omega, BitVec.ofNat_toNat, BitVec.setWidth_eq]

/-- The encoder writes the text with the two low bits of its last digit cleared; the decoder takes this text and the
three that differ from it in these bits, in letters of either case. -/
theorem spellings_of_uuid (u : Uuid) : ∃ front last, front.length = 25 ∧ last < 32 ∧ last % 4 = 0 ∧
    (encodeMmId u).toList = mmIdText (front ++ [last]) ∧
      ∀ id, decodeMmId id = some u ↔ ∃ k < 4, id.toList.map Char.toLower = mmIdText (front ++ [last + k]) := by
  have hdigits : ∀ k < 4, toDigits (2 ^ 5) 26 (u.toNat * 4 + k) =
      toDigits (2 ^ 5) 25 (u.toNat * 4 / 2 ^ 5) ++ [u.toNat * 4 % 2 ^ 5 + k] := by
    intro k hk
    have hfront : (u.toNat * 4 + k) / 2 ^ 5 = u.toNat * 4 / 2 ^ 5 := by omega
    have hlast : (u.toNat * 4 + k) % 2 ^ 5 = u.toNat * 4 % 2 ^ 5 + k := by omega
    rw [toDigits, hfront, hlast]
  refine ⟨toDigits (2 ^ 5) 25 (u.toNat * 4 / 2 ^ 5), u.toNat * 4 % 2 ^ 5, length_toDigits _ _ _, by omega, by omega, ?_, fun id => ?_⟩
  · rw [toList_encodeMmId_eq]
    rfl
  · rw [decodeMmId_eq_some]
    constructor
    · rintro ⟨k, hk, htext⟩
      exact ⟨k, hk, hdigits k hk ▸ htext⟩
    · rintro ⟨k, hk, htext⟩
      exact ⟨k, hk, (hdigits k hk).symm ▸ htext⟩

/-- The last character may be any of four. -/
theorem ids_of_zero : ¬ ∀ id u, decodeMmId id = some u → (encodeMmId u).toList = id.toList.map Char.toLower := by
  intro h
  exact absurd (h "yyyyyyyyyyyyyyyyyyyyyyyyyb" 0 (by decide +kernel)) (by decide +kernel)

end Rustchat
