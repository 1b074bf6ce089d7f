import Rustchat.Lib.Msgpack

/-!
# No two items have the same bytes

The first byte of an item gives its kind and its format, and with them the bytes of its number or its
length. What follows is as long as the length says, so an item in front of a longer input can be told
from the rest of it.
-/

namespace Msgpack

inductive Lead where
  | nil
  | bool (b : Bool)
  | int (format : IntFormat)
  | sized (kind : Kind) (format : LenFormat)
deriving DecidableEq

def Lead.ofByte (b : Nat) : Option Lead :=
  if b < 0x80 then some (.int .posFix)
  else if b < 0x90 then some (.sized .map .fix)
  else if b < 0xa0 then some (.sized .arr .fix)
  else if b < 0xc0 then some (.sized .str .fix)
  else if 0xe0 ≤ b then some (.int .negFix)
  else match b with
    | 0xc0 => some .nil
    | 0xc2 => some (.bool false)
    | 0xc3 => some (.bool true)
    | 0xc4 => some (.sized .bin .w8)
    | 0xc5 => some (.sized .bin .w16)
    | 0xc6 => some (.sized .bin .w32)
    | 0xcc => some (.int (.unsigned .b1))
    | 0xcd => some (.int (.unsigned .b2))
    | 0xce => some (.int (.unsigned .b4))
    | 0xcf => some (.int (.unsigned .b8))
    | 0xd0 => some (.int (.signed .b1))
    | 0xd1 => some (.int (.signed .b2))
    | 0xd2 => some (.int (.signed .b4))
    | 0xd3 => some (.int (.signed .b8))
    | 0xd9 => some (.sized .str .w8)
    | 0xda => some (.sized .str .w16)
    | 0xdb => some (.sized .str .w32)
    | 0xdc => some (.sized .arr .w16)
    | 0xdd => some (.sized .arr .w32)
    | 0xde => some (.sized .map .w16)
    | 0xdf => some (.sized .map .w32)
    | _ => none

def leadOf (e : List UInt8) : Option Lead := e.head?.bind fun b => Lead.ofByte b.toNat

theorem leadOf_cons {n : Nat} (h : n < 256) (e : List UInt8) : leadOf (UInt8.ofNat n :: e) = Lead.ofByte n := by
  rw [leadOf, List.head?_cons, Option.bind_some, UInt8.toNat_ofNat', Nat.mod_eq_of_lt h]

section Numbers
variable {e e' : List UInt8}

theorem leadOf_write {f : IntFormat} {n : Int} (h : f.Holds n) : leadOf (f.write n ++ e) = some (.int f) := by
  cases f with
  | posFix =>
    have hlt : n.toNat < 128 := by have := h.2; omega
    exact (leadOf_cons (Nat.lt_trans hlt (by decide)) e).trans (if_pos hlt)
  | negFix =>
    have hn : -32 ≤ n ∧ n < 0 := h
    refine (leadOf_cons (by omega) e).trans ?_
    simp (disch := omega) only [Lead.ofByte, if_neg, if_pos]
  | unsigned size => cases size <;> exact leadOf_cons (by decide) _
  | signed size => cases size <;> exact leadOf_cons (by decide) _

theorem leadOf_head {kind : Kind} {format : LenFormat} {n : Nat} (h : n < kind.limit format) :
    leadOf (kind.head format n ++ e) = some (.sized kind format) := by
  cases hf : format.size with
  | none =>
    obtain rfl := eq_fix_of_size hf
    refine (leadOf_cons (Kind.marker_add_lt h) e).trans ?_
    cases kind with
    | bin => cases h
    | str | arr | map =>
      simp only [Kind.marker, Kind.limit] at h ⊢
      simp (disch := omega) only [Lead.ofByte, if_neg, if_pos]
  | some size =>
    have hpos : 0 < kind.limit format := Nat.zero_lt_of_lt h
    rw [Kind.head_sized hf]
    refine (leadOf_cons (Kind.marker_lt kind format) _).trans ?_
    cases format with
    | fix => cases hf
    | w8 =>
      cases kind with
      | str | bin => rfl
      | arr | map => cases hpos
    | w16 | w32 => cases kind <;> rfl

theorem be_append_inj {k n n' : Nat} (hn : n < 256 ^ k) (hn' : n' < 256 ^ k) (h : be k n ++ e = be k n' ++ e') :
    n = n' ∧ e = e' := by
  obtain ⟨hb, he⟩ := List.append_inj h (by rw [length_be, length_be])
  have hof := congrArg ofBe hb
  rw [ofBe_be, ofBe_be, Nat.mod_eq_of_lt hn, Nat.mod_eq_of_lt hn'] at hof
  exact ⟨hof, he⟩

theorem ofNat_append_inj {n n' : Nat} (hn : n < 256) (hn' : n' < 256) (h : UInt8.ofNat n :: e = UInt8.ofNat n' :: e') :
    n = n' ∧ e = e' := by
  obtain ⟨hb, he⟩ := List.cons.inj h
  have ht := congrArg UInt8.toNat hb
  rw [UInt8.toNat_ofNat', UInt8.toNat_ofNat', Nat.mod_eq_of_lt hn, Nat.mod_eq_of_lt hn'] at ht
  exact ⟨ht, he⟩

theorem write_append_inj {f : IntFormat} {n n' : Int} (hn : f.Holds n) (hn' : f.Holds n')
    (h : f.write n ++ e = f.write n' ++ e') : n = n' ∧ e = e' := by
  cases f with
  | posFix =>
    have hlt : n < 128 ∧ n' < 128 := ⟨hn.2, hn'.2⟩
    have hpos : 0 ≤ n ∧ 0 ≤ n' := ⟨hn.1, hn'.1⟩
    obtain ⟨hnat, he⟩ := ofNat_append_inj (by omega) (by omega) h
    exact ⟨by omega, he⟩
  | negFix =>
    have hlt : n < 0 ∧ n' < 0 := ⟨hn.2, hn'.2⟩
    have hge : -32 ≤ n ∧ -32 ≤ n' := ⟨hn.1, hn'.1⟩
    obtain ⟨hnat, he⟩ := ofNat_append_inj (by omega) (by omega) h
    exact ⟨by omega, he⟩
  | unsigned size =>
    have hbelow : ∀ {n : Int}, (IntFormat.unsigned size).Holds n → n.toNat < 256 ^ size.bytes := fun hn => by
      refine lt_of_lt_of_eq ?_ (Nat.pow_mul 2 8 _)
      exact (Int.toNat_lt hn.1).2 (by push_cast; exact hn.2)
    obtain ⟨hnat, he⟩ := be_append_inj (hbelow hn) (hbelow hn') (List.cons.inj h).2
    exact ⟨by rw [← Int.toNat_of_nonneg hn.1, ← Int.toNat_of_nonneg hn'.1, hnat], he⟩
  | signed size =>
    have hbelow (n : Int) : (BitVec.ofInt (8 * size.bytes) n).toNat < 256 ^ size.bytes :=
      lt_of_lt_of_eq (BitVec.isLt _) (Nat.pow_mul 2 8 _)
    obtain ⟨hnat, he⟩ := be_append_inj (hbelow n) (hbelow n') (List.cons.inj h).2
    have hpos : 0 < 8 * size.bytes := by cases size <;> decide
    have hint := congrArg BitVec.toInt (BitVec.eq_of_toNat_eq hnat)
    rw [BitVec.toInt_ofInt_eq_self hpos hn.1 hn.2, BitVec.toInt_ofInt_eq_self hpos hn'.1 hn'.2] at hint
    exact ⟨hint, he⟩

theorem head_append_inj {kind : Kind} {format : LenFormat} {n n' : Nat} (hn : n < kind.limit format)
    (hn' : n' < kind.limit format) (h : kind.head format n ++ e = kind.head format n' ++ e') : n = n' ∧ e = e' := by
  cases hf : format.size with
  | none =>
    obtain rfl := eq_fix_of_size hf
    obtain ⟨hnat, he⟩ := ofNat_append_inj (Kind.marker_add_lt hn) (Kind.marker_add_lt hn') h
    exact ⟨Nat.add_left_cancel hnat, he⟩
  | some size =>
    have hlim : kind.limit format = 256 ^ size.bytes :=
      (Kind.limit_eq hf (Nat.zero_lt_of_lt hn)).trans (Nat.pow_mul 2 8 _)
    rw [Kind.head_sized hf, Kind.head_sized hf] at h
    exact be_append_inj (hlim ▸ hn) (hlim ▸ hn') (List.cons.inj h).2

end Numbers

namespace Item

def lead : Item → Lead
  | nil => .nil
  | bool b => .bool b
  | int f _ => .int f
  | str w _ => .sized .str w
  | bin w _ => .sized .bin w
  | arr w _ => .sized .arr w
  | map w _ => .sized .map w

theorem leadOf_bytes {m : Item} (hl : m.Legal) (r : List UInt8) : leadOf (m.bytes ++ r) = some m.lead := by
  cases m with
  | nil => rfl
  | bool b => cases b <;> rfl
  | int f n => exact leadOf_write hl
  | str w s => rw [bytes, strBytes, List.append_assoc]; exact leadOf_head hl
  | bin w data => rw [bytes, List.append_assoc]; exact leadOf_head hl
  | arr w items => rw [bytes, List.append_assoc]; exact leadOf_head hl.1
  | map w entries => rw [bytes, List.append_assoc]; exact leadOf_head hl.1

theorem lead_eq {m m' : Item} (hl : m.Legal) (hl' : m'.Legal) {r r' : List UInt8} (h : m.bytes ++ r = m'.bytes ++ r') :
    m.lead = m'.lead :=
  Option.some.inj ((leadOf_bytes hl r).symm.trans ((congrArg leadOf h).trans (leadOf_bytes hl' r')))

theorem strBytes_append_inj {w : LenFormat} {s s' : String} {r r' : List UInt8} (hs : s.utf8ByteSize < Kind.str.limit w)
    (hs' : s'.utf8ByteSize < Kind.str.limit w) (h : strBytes w s ++ r = strBytes w s' ++ r') : s = s' ∧ r = r' := by
  rw [strBytes, strBytes, List.append_assoc, List.append_assoc] at h
  obtain ⟨hlen, hrest⟩ := head_append_inj hs hs' h
  obtain ⟨htext, hr⟩ := List.append_inj hrest hlen
  exact ⟨String.toByteArray_inj.1 (ByteArray.ext (Array.toList_inj.1 htext)), hr⟩

def Told (m : Item) : Prop :=
  m.Legal → ∀ (m' : Item) (r r' : List UInt8), m'.Legal → m.bytes ++ r = m'.bytes ++ r' → m = m' ∧ r = r'

theorem itemsBytes_append_inj {ms ms' : List Item} (ht : ∀ m ∈ ms, m.Told) (hl : ItemsLegal ms)
    (hl' : ItemsLegal ms') (hlen : ms.length = ms'.length) {r r' : List UInt8}
    (h : itemsBytes ms ++ r = itemsBytes ms' ++ r') : ms = ms' ∧ r = r' := by
  induction ms generalizing ms' with
  | nil => obtain rfl := List.length_eq_zero_iff.1 hlen.symm; exact ⟨rfl, h⟩
  | cons m ms ih =>
    cases ms' with
    | nil => cases hlen
    | cons m' ms' =>
      rw [itemsBytes, itemsBytes, List.append_assoc, List.append_assoc] at h
      obtain ⟨rfl, hrest⟩ := ht m List.mem_cons_self hl.1 m' _ _ hl'.1 h
      obtain ⟨rfl, hr⟩ := ih (fun m hm => ht m (List.mem_cons_of_mem _ hm)) hl.2 hl'.2 (Nat.succ.inj hlen) hrest
      exact ⟨rfl, hr⟩

theorem lead_strBytes {w : LenFormat} {s : String} (hs : s.utf8ByteSize < Kind.str.limit w) (r : List UInt8) :
    leadOf (strBytes w s ++ r) = some (.sized .str w) :=
  leadOf_bytes (m := .str w s) hs r

theorem entriesBytes_append_inj {es es' : List ((LenFormat × String) × Item)} (ht : ∀ e ∈ es, e.2.Told)
    (hl : EntriesLegal es) (hl' : EntriesLegal es') (hlen : es.length = es'.length) {r r' : List UInt8}
    (h : entriesBytes es ++ r = entriesBytes es' ++ r') : es = es' ∧ r = r' := by
  induction es generalizing es' with
  | nil => obtain rfl := List.length_eq_zero_iff.1 hlen.symm; exact ⟨rfl, h⟩
  | cons e es ih =>
    cases es' with
    | nil => cases hlen
    | cons e' es' =>
      obtain ⟨⟨w, key⟩, m⟩ := e
      obtain ⟨⟨w', key'⟩, m'⟩ := e'
      simp only [entriesBytes, List.append_assoc] at h
      have hlead := congrArg leadOf h
      rw [lead_strBytes hl.1, lead_strBytes hl'.1] at hlead
      cases hlead
      obtain ⟨rfl, hvalue⟩ := strBytes_append_inj hl.1 hl'.1 h
      have hm : m.Told := ht _ List.mem_cons_self
      obtain ⟨rfl, hrest⟩ := hm hl.2.1 m' _ _ hl'.2.1 hvalue
      obtain ⟨rfl, hr⟩ := ih (fun e he => ht e (List.mem_cons_of_mem _ he)) hl.2.2 hl'.2.2 (Nat.succ.inj hlen) hrest
      exact ⟨rfl, hr⟩

theorem bytes_append_inj (m : Item) : m.Told := by
  induction m using Item.induction with
  | nil =>
    intro hl m' r r' hl' h
    have hlead : Lead.nil = m'.lead := lead_eq hl hl' h
    cases m' with
    | nil => exact ⟨rfl, (List.cons.inj h).2⟩
    | bool | int | str | bin | arr | map => cases hlead
  | bool b =>
    intro hl m' r r' hl' h
    have hlead : Lead.bool b = m'.lead := lead_eq hl hl' h
    cases m' with
    | bool b' =>
      cases hlead
      exact ⟨rfl, List.append_cancel_left h⟩
    | nil | int | str | bin | arr | map => cases hlead
  | int f n =>
    intro hl m' r r' hl' h
    have hlead : Lead.int f = m'.lead := lead_eq hl hl' h
    cases m' with
    | int f' n' =>
      cases hlead
      obtain ⟨rfl, hr⟩ := write_append_inj hl hl' h
      exact ⟨rfl, hr⟩
    | nil | bool | str | bin | arr | map => cases hlead
  | str w s =>
    intro hl m' r r' hl' h
    have hlead : Lead.sized .str w = m'.lead := lead_eq hl hl' h
    cases m' with
    | str w' s' =>
      cases hlead
      obtain ⟨rfl, hr⟩ := strBytes_append_inj hl hl' h
      exact ⟨rfl, hr⟩
    | nil | bool | int | bin | arr | map => cases hlead
  | bin w data =>
    intro hl m' r r' hl' h
    have hlead : Lead.sized .bin w = m'.lead := lead_eq hl hl' h
    cases m' with
    | bin w' data' =>
      cases hlead
      rw [bytes, bytes, List.append_assoc, List.append_assoc] at h
      obtain ⟨hlen, hrest⟩ := head_append_inj hl hl' h
      obtain ⟨rfl, hr⟩ := List.append_inj hrest hlen
      exact ⟨rfl, hr⟩
    | nil | bool | int | str | arr | map => cases hlead
  | arr w items ih =>
    intro hl m' r r' hl' h
    have hlead : Lead.sized .arr w = m'.lead := lead_eq hl hl' h
    cases m' with
    | arr w' items' =>
      cases hlead
      rw [bytes, bytes, List.append_assoc, List.append_assoc] at h
      obtain ⟨hlen, hrest⟩ := head_append_inj hl.1 hl'.1 h
      obtain ⟨rfl, hr⟩ := itemsBytes_append_inj ih hl.2 hl'.2 hlen hrest
      exact ⟨rfl, hr⟩
    | nil | bool | int | str | bin | map => cases hlead
  | map w entries ih =>
    intro hl m' r r' hl' h
    have hlead : Lead.sized .map w = m'.lead := lead_eq hl hl' h
    cases m' with
    | map w' entries' =>
      cases hlead
      rw [bytes, bytes, List.append_assoc, List.append_assoc] at h
      obtain ⟨hlen, hrest⟩ := head_append_inj hl.1 hl'.1 h
      obtain ⟨rfl, hr⟩ := entriesBytes_append_inj ih hl.2 hl'.2 hlen hrest
      exact ⟨rfl, hr⟩
    | nil | bool | int | str | bin | arr => cases hlead

end Item

end Msgpack
